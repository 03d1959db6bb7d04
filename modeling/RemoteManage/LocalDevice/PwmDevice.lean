import Mathlib.Data.Int.Basic
import Mathlib.Data.List.Basic

/-!
# The PWM driver of `local_device`

`pwm_setup` opens the three files of a PWM channel and writes period, duty and state as decimal
text. The files are a parameter: they answer each open and each write as they like. The duty is
kept in eight bits, and before anything has been opened.
-/

namespace RemoteManage.LocalDevice

/-- The files of a PWM channel: `PWM_ENABLE`, `PWM_PEROID` and `PWM_DUTYCLE`. -/
inductive PwmFile where
  | enable
  | peroid
  | dutycle
  deriving DecidableEq, Repr

/-- How the files of a PWM channel answer: whether they can be opened, and what a write of the decimal
text of a number returns and does to them. -/
structure Sysfs (σ : Type*) where
  opens : σ → PwmFile → Bool
  write : σ → PwmFile → ℤ → σ × ℤ

/-- The fields of `pwm_device` that its users see. -/
structure PwmDevice where
  duty : UInt8
  deriving DecidableEq, Repr

/-- A new `pwm_device`. -/
def PwmDevice.init : PwmDevice := ⟨0⟩

/-- `get_duty`. -/
def PwmDevice.getDuty (dev : PwmDevice) : UInt8 := dev.duty

/-- `pwm_setup`: the files and the device behind it, and the value returned. -/
def PwmDevice.pwmSetup {σ : Type*} (_dev : PwmDevice) (sysfs : Sysfs σ) (files : σ) (state : Int32)
    (peroid dutyCycle : UInt32) : σ × PwmDevice × ℤ :=
  let dev : PwmDevice := ⟨dutyCycle.toUInt8⟩
  if sysfs.opens files .enable && sysfs.opens files .peroid && sysfs.opens files .dutycle then
    let wrotePeroid := sysfs.write files .peroid peroid.toNat
    if wrotePeroid.2 < 0 then (wrotePeroid.1, dev, wrotePeroid.2)
    else
      let wroteDuty := sysfs.write wrotePeroid.1 .dutycle dutyCycle.toNat
      if wroteDuty.2 < 0 then (wroteDuty.1, dev, wroteDuty.2)
      else
        let wroteState := sysfs.write wroteDuty.1 .enable state.toInt
        (wroteState.1, dev, wroteState.2)
  else (files, dev, -1)

/-- Whatever the files answer, the device keeps the low byte of the duty that was asked for. -/
theorem PwmDevice.pwmSetup_duty {σ : Type*} (dev : PwmDevice) (sysfs : Sysfs σ) (files : σ) (state : Int32)
    (peroid dutyCycle : UInt32) :
    (dev.pwmSetup sysfs files state peroid dutyCycle).2.1.getDuty = dutyCycle.toUInt8 := by
  unfold pwmSetup
  dsimp only
  split
  · split
    · rfl
    · split <;> rfl
  · rfl

/-- A call of `pwm_setup`, as far as the duty is concerned. -/
structure PwmSetup where
  duty : UInt32
  succeeded : Bool
  deriving DecidableEq, Repr

/-- The duty of the last call, zero before the first. -/
def requestedDuty (setups : List PwmSetup) : ℕ := (setups.getLast?.map fun setup => setup.duty.toNat).getD 0

/-- The duty of the last call that succeeded completely, zero before the first. -/
def appliedDuty (setups : List PwmSetup) : ℕ := requestedDuty (setups.filter PwmSetup.succeeded)

/-- The last call asks for its own duty. -/
theorem requestedDuty_concat (setups : List PwmSetup) (setup : PwmSetup) :
    requestedDuty (setups ++ [setup]) = setup.duty.toNat := by
  rw [requestedDuty, List.getLast?_concat]
  rfl

end RemoteManage.LocalDevice

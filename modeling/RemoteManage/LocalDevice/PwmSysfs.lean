import RemoteManage.LocalDevice.PwmDevice
import Mathlib.Data.Int.Order.Basic
import Mathlib.Order.Lattice

/-!
# A change of the PWM waveform through sysfs

The kernel checks every attribute of a PWM channel against the two others when it is written, and
`pwm_setup` writes period, duty and state one after another in this order. Whether a change of all
three goes through, and what is left of it when one write is refused, depends on how the old values
compare with the new ones.
-/

namespace RemoteManage.LocalDevice

variable {σ : Type*}

/-- The attributes of a PWM channel. -/
structure PwmAttributes where
  peroid : ℕ
  duty : ℕ
  enable : ℤ
  deriving DecidableEq, Repr

/-- How the kernel answers a write of an attribute: an accepted write takes effect, a refused one
returns an error and changes nothing. -/
structure Answers (attributes : σ → PwmAttributes) (files : σ) (after : PwmAttributes) (allowed : Prop)
    (result : σ × ℤ) : Prop where
  accepted : allowed → 0 ≤ result.2 ∧ attributes result.1 = after
  refused : ¬ allowed → result.2 < 0 ∧ attributes result.1 = attributes files

/-- The rule of the kernel for the files of an exported channel: the period may not fall below the duty,
the duty may not exceed the period, and the channel cannot be enabled while the period is zero. Which other
values the enable file takes is left open. -/
structure KernelRule (sysfs : Sysfs σ) (attributes : σ → PwmAttributes) (takes : ℤ → ℕ → Prop) : Prop where
  opens : ∀ files file, sysfs.opens files file = true
  peroid : ∀ files (value : ℕ), Answers attributes files { attributes files with peroid := value }
    ((attributes files).duty ≤ value) (sysfs.write files .peroid value)
  dutycle : ∀ files (value : ℕ), Answers attributes files { attributes files with duty := value }
    (value ≤ (attributes files).peroid) (sysfs.write files .dutycle value)
  enable : ∀ files (value : ℤ), Answers attributes files { attributes files with enable := value }
    (takes value (attributes files).peroid) (sysfs.write files .enable value)
  enable_zero : ∀ value, value ≠ 0 → ¬ takes value 0

/-- A request for a waveform: the period is not zero and the duty not above it. -/
def ValidWaveform (peroid duty : ℕ) : Prop := 0 < peroid ∧ duty ≤ peroid

/-- A valid request goes through completely, and a request that is refused leaves the attributes as they
were. -/
def AllOrNothing (current final : PwmAttributes) (result : ℤ) (requested : PwmAttributes) : Prop :=
  (ValidWaveform requested.peroid requested.duty → 0 ≤ result ∧ final = requested) ∧
    (result < 0 → final = current)

/-- The kernel accepts the three writes of `pwm_setup` one after another. -/
def AcceptsInTurn (takes : ℤ → ℕ → Prop) (current requested : PwmAttributes) : Prop :=
  current.duty ≤ requested.peroid ∧ requested.duty ≤ requested.peroid ∧
    takes requested.enable requested.peroid

/-- The change is one that `pwm_setup` makes completely or not at all: every write is accepted, or the
request is invalid and its period is refused or the one already set. -/
def ChangesWhole (takes : ℤ → ℕ → Prop) (current requested : PwmAttributes) : Prop :=
  AcceptsInTurn takes current requested ∨
    ¬ ValidWaveform requested.peroid requested.duty ∧
      (requested.peroid < current.duty ∨ requested.peroid = current.peroid)

/-- What a call of `pwm_setup` asks for. -/
def PwmAttributes.request (state : Int32) (peroid dutyCycle : UInt32) : PwmAttributes :=
  ⟨peroid.toNat, dutyCycle.toNat, state.toInt⟩

variable {sysfs : Sysfs σ} {attributes : σ → PwmAttributes} {takes : ℤ → ℕ → Prop}

/-- The three ways in which a call of `pwm_setup` is refused, and what is left behind: the old attributes,
the new period, or the new period and the new duty. Otherwise everything is as requested. -/
theorem KernelRule.pwmSetup_cases (rule : KernelRule sysfs attributes takes) (dev : PwmDevice) (files : σ)
    (state : Int32) (peroid dutyCycle : UInt32) :
    let current := attributes files
    let requested := PwmAttributes.request state peroid dutyCycle
    let result := dev.pwmSetup sysfs files state peroid dutyCycle
    (requested.peroid < current.duty ∧ result.2.2 < 0 ∧ attributes result.1 = current) ∨
      (current.duty ≤ requested.peroid ∧ requested.peroid < requested.duty ∧ result.2.2 < 0 ∧
        attributes result.1 = { current with peroid := requested.peroid }) ∨
      (current.duty ≤ requested.peroid ∧ requested.duty ≤ requested.peroid ∧
        ¬ takes requested.enable requested.peroid ∧ result.2.2 < 0 ∧
        attributes result.1 = { requested with enable := current.enable }) ∨
      (AcceptsInTurn takes current requested ∧ 0 ≤ result.2.2 ∧ attributes result.1 = requested) := by
  intro current requested result
  have hperoid := rule.peroid files peroid.toNat
  have hresult : result = dev.pwmSetup sysfs files state peroid dutyCycle := rfl
  simp only [PwmDevice.pwmSetup, rule.opens, Bool.and_self, if_true] at hresult
  by_cases hp : current.duty ≤ requested.peroid
  case neg =>
    -- the period is refused, and nothing more is written
    obtain ⟨hneg, hsame⟩ := hperoid.refused hp
    rw [if_pos hneg] at hresult
    exact Or.inl ⟨Nat.lt_of_not_le hp, hresult ▸ hneg, hresult ▸ hsame⟩
  obtain ⟨hpos, hset⟩ := hperoid.accepted hp
  rw [if_neg (not_lt.mpr hpos)] at hresult
  have hdutycle := rule.dutycle (sysfs.write files .peroid peroid.toNat).1 dutyCycle.toNat
  rw [hset] at hdutycle
  by_cases hd : requested.duty ≤ requested.peroid
  case neg =>
    -- the duty is refused, and the period stays written
    obtain ⟨hneg, hsame⟩ := hdutycle.refused hd
    rw [if_pos hneg] at hresult
    exact Or.inr (Or.inl ⟨hp, Nat.lt_of_not_le hd, hresult ▸ hneg, hresult ▸ hsame.trans hset⟩)
  obtain ⟨hposDuty, hsetDuty⟩ := hdutycle.accepted hd
  rw [if_neg (not_lt.mpr hposDuty)] at hresult
  have henable := rule.enable
    (sysfs.write (sysfs.write files .peroid peroid.toNat).1 .dutycle dutyCycle.toNat).1 state.toInt
  rw [hsetDuty] at henable
  by_cases he : takes requested.enable requested.peroid
  · obtain ⟨hposState, hsetState⟩ := henable.accepted he
    exact Or.inr (Or.inr (Or.inr ⟨⟨hp, hd, he⟩, hresult ▸ hposState, hresult ▸ hsetState⟩))
  · obtain ⟨hneg, hsame⟩ := henable.refused he
    exact Or.inr (Or.inr (Or.inl ⟨hp, hd, he, hresult ▸ hneg, hresult ▸ hsame.trans hsetDuty⟩))

/-- `pwm_setup` is all or nothing exactly for the changes in which every write is accepted, and for the
invalid requests whose period is below the duty now set or is the period now set. -/
theorem KernelRule.pwmSetup_allOrNothing_iff (rule : KernelRule sysfs attributes takes) (dev : PwmDevice)
    (files : σ) (hcurrent : (attributes files).duty ≤ (attributes files).peroid) (state : Int32)
    (peroid dutyCycle : UInt32) :
    AllOrNothing (attributes files) (attributes (dev.pwmSetup sysfs files state peroid dutyCycle).1)
        (dev.pwmSetup sysfs files state peroid dutyCycle).2.2
        (PwmAttributes.request state peroid dutyCycle) ↔
      ChangesWhole takes (attributes files) (PwmAttributes.request state peroid dutyCycle) := by
  have hcases := rule.pwmSetup_cases dev files state peroid dutyCycle
  dsimp only at hcases
  generalize dev.pwmSetup sysfs files state peroid dutyCycle = result at hcases ⊢
  generalize PwmAttributes.request state peroid dutyCycle = requested at hcases ⊢
  generalize attributes files = current at hcases hcurrent ⊢
  unfold AllOrNothing ChangesWhole AcceptsInTurn ValidWaveform
  rcases hcases with ⟨hp, hneg, hfinal⟩ | ⟨hp, hd, hneg, hfinal⟩ | ⟨hp, hd, he, hneg, hfinal⟩ |
    ⟨hall, hpos, hfinal⟩
  · -- nothing was written: only a valid request is wronged
    constructor
    · rintro ⟨hvalid, -⟩
      exact Or.inr ⟨fun h => absurd (hvalid h).1 (not_le.mpr hneg), Or.inl hp⟩
    · rintro (⟨h, -⟩ | ⟨hinvalid, -⟩)
      · exact absurd h (not_le.mpr hp)
      · exact ⟨fun h => absurd h hinvalid, fun _ => hfinal⟩
  · -- the request is invalid, and its period has been written
    have hinvalid : ¬ (0 < requested.peroid ∧ requested.duty ≤ requested.peroid) := fun h => not_le.mpr hd h.2
    constructor
    · rintro ⟨-, hback⟩
      have hsame := congrArg PwmAttributes.peroid (hfinal.symm.trans (hback hneg))
      exact Or.inr ⟨hinvalid, Or.inr hsame⟩
    · rintro (⟨-, h, -⟩ | ⟨-, h | h⟩)
      · exact absurd h (not_le.mpr hd)
      · exact absurd hp (not_le.mpr h)
      · exact ⟨fun hvalid => absurd hvalid hinvalid, fun _ => by rw [hfinal, h]⟩
  · -- period and duty have been written; with a period of zero they may be the old ones
    constructor
    · rintro ⟨hvalid, hback⟩
      have hsame := congrArg PwmAttributes.peroid (hfinal.symm.trans (hback hneg))
      exact Or.inr ⟨fun h => absurd (hvalid h).1 (not_le.mpr hneg), Or.inr hsame⟩
    · rintro (⟨-, -, h⟩ | ⟨hinvalid, h | h⟩)
      · exact absurd h he
      · exact absurd hp (not_le.mpr h)
      · have hduty : requested.duty = current.duty := by omega
        exact ⟨fun hvalid => absurd hvalid hinvalid, fun _ => by rw [hfinal, h, hduty]⟩
  · exact iff_of_true ⟨fun _ => ⟨hpos, hfinal⟩, fun h => absurd hpos (not_le.mpr h)⟩ (Or.inl hall)

/-- The answer to a write of `value`: the length of its text, or `-EINVAL`. -/
def kernelAnswer (files after : PwmAttributes) (allowed : Prop) [Decidable allowed] (value : ℤ) :
    PwmAttributes × ℤ :=
  if allowed then (after, (toString value).length) else (files, -22)

/-- An answer of the kernel takes effect or changes nothing. -/
theorem kernelAnswer_answers (files after : PwmAttributes) (allowed : Prop) [Decidable allowed] (value : ℤ) :
    Answers id files after allowed (kernelAnswer files after allowed value) where
  accepted h := by simp [kernelAnswer, h]
  refused h := by simp [kernelAnswer, h]

/-- The kernel switches a channel off at any time, and on when its period is not zero. -/
def kernelTakes (value : ℤ) (peroid : ℕ) : Prop := value = 0 ∨ value = 1 ∧ 0 < peroid

instance (value : ℤ) (peroid : ℕ) : Decidable (kernelTakes value peroid) :=
  inferInstanceAs (Decidable (_ ∨ _))

/-- The files of a channel as the kernel keeps them. -/
def kernelSysfs : Sysfs PwmAttributes where
  opens _ _ := true
  write files file value :=
    match file, value with
    | .peroid, .ofNat v => kernelAnswer files { files with peroid := v } (files.duty ≤ v) v
    | .dutycle, .ofNat v => kernelAnswer files { files with duty := v } (v ≤ files.peroid) v
    | .enable, v => kernelAnswer files { files with enable := v } (kernelTakes v files.peroid) v
    | _, .negSucc _ => (files, -22)

/-- The kernel's files follow its rule. -/
theorem kernelSysfs_rule : KernelRule kernelSysfs id kernelTakes where
  opens _ _ := rfl
  peroid files value := kernelAnswer_answers files _ _ _
  dutycle files value := kernelAnswer_answers files _ _ _
  enable files value := kernelAnswer_answers files _ _ _
  enable_zero value h := by
    unfold kernelTakes
    omega

/-- A waveform of 1000 and 500 is changed to one of 2000 and 1500 completely. -/
theorem KernelRule.pwmSetup_allOrNothing_larger :
    AllOrNothing ⟨1000, 500, 1⟩ (PwmDevice.init.pwmSetup kernelSysfs ⟨1000, 500, 1⟩ 1 2000 1500).1
      (PwmDevice.init.pwmSetup kernelSysfs ⟨1000, 500, 1⟩ 1 2000 1500).2.2 (.request 1 2000 1500) :=
  (kernelSysfs_rule.pwmSetup_allOrNothing_iff .init ⟨1000, 500, 1⟩ (by decide) 1 2000 1500).mpr
    (Or.inl ⟨by decide, by decide, by decide⟩)

/-- A waveform of 1000 and 500 cannot be changed to one of 400 and 200, since the new period is below the
old duty; and a request of 2000 and 3000 is refused after its period has been written. -/
theorem KernelRule.pwmSetup_partial :
    ¬ (∀ (current : PwmAttributes) (state : Int32) (peroid dutyCycle : UInt32),
      current.duty ≤ current.peroid →
        AllOrNothing current (PwmDevice.init.pwmSetup kernelSysfs current state peroid dutyCycle).1
          (PwmDevice.init.pwmSetup kernelSysfs current state peroid dutyCycle).2.2
          (.request state peroid dutyCycle)) ∧
      PwmDevice.init.pwmSetup kernelSysfs ⟨1000, 500, 1⟩ 1 400 200 = (⟨1000, 500, 1⟩, ⟨200⟩, -22) ∧
      PwmDevice.init.pwmSetup kernelSysfs ⟨1000, 500, 1⟩ 1 2000 3000 = (⟨2000, 500, 1⟩, ⟨184⟩, -22) := by
  have hrefused : PwmDevice.init.pwmSetup kernelSysfs ⟨1000, 500, 1⟩ 1 400 200 =
      (⟨1000, 500, 1⟩, ⟨200⟩, -22) := by decide
  refine ⟨fun h => ?_, hrefused, by decide⟩
  have hvalid := (h ⟨1000, 500, 1⟩ 1 400 200 (by decide)).1 ⟨by decide, by decide⟩
  rw [hrefused] at hvalid
  exact absurd hvalid.1 (by decide)

end RemoteManage.LocalDevice

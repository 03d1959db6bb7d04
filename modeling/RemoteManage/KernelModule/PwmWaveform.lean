import RemoteManage.KernelModule.PwmProvider
import Mathlib.Algebra.Order.Floor.Div

/-!
# The waveform of the PWM provider

At a clock of 66 MHz the period and the duty are turned into cycles and divided by the prescaler,
rounding down each time; `pwm_driver_get_state` turns them back and rounds up. The waveform is that
asked for, up to this rounding, as long as the prescaler fits the twelve bits of its field.
-/

namespace RemoteManage.KernelModule

open RemoteManage.Foundation

/-- A time in cycles of a clock of 66 MHz. -/
def cyclesAt66 (ns : ℕ) : ℕ := 66000000 * ns / 1000000000

/-- The prescaler for a period. -/
def prescaleAt66 (ns : ℕ) : ℕ := cyclesAt66 ns / 65536 + 1

section Cycles

variable {answers : PwmAnswers} (hrate : answers.rate = 66000000)

include hrate

/-- The driver counts the cycles of a time of 32 bits. -/
theorem clkCycles_toNat {ns : BitVec 64} (hns : ns.toNat < 4294967296) :
    (clkCycles answers ns).toNat = cyclesAt66 ns.toNat := by
  have hproduct : 66000000 * ns.toNat < 18446744073709551616 := by omega
  have hcycles : cyclesAt66 ns.toNat < 4294967296 := by
    unfold cyclesAt66
    omega
  rw [clkCycles, hrate, BitVec.toNat_setWidth, BitVec.toNat_udiv, BitVec.toNat_mul]
  change 66000000 * ns.toNat % 18446744073709551616 / 1000000000 % 4294967296 = _
  rw [Nat.mod_eq_of_lt hproduct]
  exact Nat.mod_eq_of_lt hcycles

/-- The driver finds the prescaler of a period of 32 bits. -/
theorem pwmPrescale_toNat {state : PwmState} (hperiod : state.period.toNat < 4294967296) :
    (pwmPrescale answers state).toNat = prescaleAt66 state.period.toNat := by
  have hcycles : cyclesAt66 state.period.toNat < 4294967296 := by
    unfold cyclesAt66
    omega
  rw [pwmPrescale, BitVec.toNat_add, BitVec.toNat_udiv, clkCycles_toNat hrate hperiod]
  change (cyclesAt66 state.period.toNat / 65536 + 1) % 4294967296 = prescaleAt66 state.period.toNat
  unfold prescaleAt66
  omega

/-- The period register gets the cycles divided by the prescaler, less two. -/
theorem pwmPeriodCycles_toNat {state : PwmState} (hperiod : state.period.toNat < 4294967296) :
    (pwmPeriodCycles answers state).toNat =
      cyclesAt66 state.period.toNat / prescaleAt66 state.period.toNat - 2 := by
  unfold pwmPeriodCycles
  dsimp only
  have hquotient : (clkCycles answers state.period / pwmPrescale answers state).toNat =
      cyclesAt66 state.period.toNat / prescaleAt66 state.period.toNat := by
    rw [BitVec.toNat_udiv, clkCycles_toNat hrate hperiod, pwmPrescale_toNat hrate hperiod]
  rw [← hquotient]
  generalize clkCycles answers state.period / pwmPrescale answers state = quotient
  split
  · bv_omega
  · bv_omega

/-- The sample register gets the cycles of the duty divided by the prescaler. -/
theorem pwmDutyCycles_toNat {state : PwmState} (hperiod : state.period.toNat < 4294967296)
    (hduty : state.dutyCycle.toNat < 4294967296) :
    (pwmDutyCycles answers state).toNat =
      cyclesAt66 state.dutyCycle.toNat / prescaleAt66 state.period.toNat := by
  rw [pwmDutyCycles, BitVec.toNat_udiv, clkCycles_toNat hrate hduty, pwmPrescale_toNat hrate hperiod]

end Cycles

/-- The prescaler brings the cycles of its period below 16 bits. -/
theorem cycles_div_prescale_lt (ns : ℕ) : cyclesAt66 ns / prescaleAt66 ns < 65536 := by
  refine Nat.div_lt_of_lt_mul ?_
  rw [prescaleAt66, Nat.mul_comm]
  exact Nat.lt_mul_div_succ _ (by decide)

/-- The prescaler fits its field exactly up to a period of 4067203878 ns. -/
theorem prescale_le_iff (ns : ℕ) : prescaleAt66 ns ≤ 4096 ↔ ns ≤ 4067203878 := by
  unfold prescaleAt66 cyclesAt66
  omega

/-- Rounded up, the time of cycles of 66 MHz is the least that has so many. -/
theorem divRoundUpUll_toNat {answers : PwmAnswers} (hrate : answers.rate = 66000000) {n : BitVec 64}
    (hn : n.toNat < 18446744073000000000) : (divRoundUpUll n answers.rate).toNat = n.toNat ⌈/⌉ 66000000 := by
  have hdivisor : (66000000 : BitVec 32).setWidth 64 = 66000000 := by decide
  have hsum : (n + 66000000 - 1).toNat = n.toNat + 66000000 - 1 := by bv_omega
  rw [divRoundUpUll, hrate, hdivisor, BitVec.toNat_udiv, hsum, Nat.ceilDiv_eq_add_pred_div]
  rfl

/-- The time that `pwm_driver_get_state` computes for a register and a prescaler. -/
theorem readBack_toNat {answers : PwmAnswers} (hrate : answers.rate = 66000000) {count prescaler : BitVec 32}
    (hcount : count.toNat ≤ 65536) (hprescaler : prescaler.toNat ≤ 4096) :
    (divRoundUpUll (nsecPerSec * count.setWidth 64 * prescaler.setWidth 64) answers.rate).toNat =
      (1000000000 * count.toNat * prescaler.toNat) ⌈/⌉ 66000000 := by
  have hbound : 1000000000 * count.toNat * prescaler.toNat ≤ 1000000000 * 65536 * 4096 :=
    Nat.mul_le_mul (Nat.mul_le_mul_left _ hcount) hprescaler
  have hproduct : (nsecPerSec * count.setWidth 64 * prescaler.setWidth 64).toNat =
      1000000000 * count.toNat * prescaler.toNat := by
    rw [BitVec.toNat_mul, BitVec.toNat_mul, BitVec.toNat_setWidth_of_le (by decide),
      BitVec.toNat_setWidth_of_le (by decide)]
    change 1000000000 * count.toNat % 18446744073709551616 * prescaler.toNat % 18446744073709551616 = _
    have hfirst : 1000000000 * count.toNat < 18446744073709551616 := by omega
    rw [Nat.mod_eq_of_lt hfirst, Nat.mod_eq_of_lt (by omega)]
  rw [divRoundUpUll_toNat hrate (by omega), hproduct]

/-- What `pwm_driver_get_state` reads back, when the sample register holds the duty of the driver. -/
theorem pwmDriverGetState_times {answers : PwmAnswers} (henables : answers.Enables)
    (hrate : answers.rate = 66000000) (info : PwmDriverInfo) {prescaler count duty : ℕ}
    (hprescaler : (mx3PwmcrPrescalerGet info.registers.pwmcr).toNat = prescaler) (hfits : prescaler ≤ 4096)
    (hcount : info.registers.pwmpr.toNat + 2 = count) (hcountLt : count < 65536)
    (hsar : info.registers.pwmsar = info.dutyCycle) (hduty : info.dutyCycle.toNat = duty)
    (hdutyLt : duty < 65536) (old : PwmState) :
    let back := (pwmDriverGetState answers info old).2.2
    back.period.toNat = (1000000000 * count * prescaler) ⌈/⌉ 66000000 ∧
      back.dutyCycle.toNat = (1000000000 * duty * prescaler) ⌈/⌉ 66000000 := by
  intro back
  have hbelow : ¬info.registers.pwmpr ≥ mx3PwmprMax := by
    rw [ge_iff_le, BitVec.le_def]
    change ¬65534 ≤ info.registers.pwmpr.toNat
    omega
  have hval : (if info.registers.enabled then info.registers.pwmsar else info.dutyCycle) =
      info.dutyCycle := by
    rw [hsar, ite_self]
  have hback : back =
      ⟨divRoundUpUll (nsecPerSec * (info.registers.pwmpr + 2).setWidth 64 *
          (mx3PwmcrPrescalerGet info.registers.pwmcr).setWidth 64) answers.rate,
        divRoundUpUll (nsecPerSec * info.dutyCycle.setWidth 64 *
          (mx3PwmcrPrescalerGet info.registers.pwmcr).setWidth 64) answers.rate,
        back.polarity, back.enabled⟩ := by
    simp only [back, pwmDriverGetState, pwmClkEnable_of_enables henables, ne_eq, not_true, if_false]
    rw [if_neg hbelow, hval]
  have hread : (info.registers.pwmpr + 2).toNat = count := by bv_omega
  rw [hback]
  constructor
  · rw [readBack_toNat hrate (by omega) (by omega), hread, hprescaler]
  · rw [readBack_toNat hrate (by omega) (by omega), hduty, hprescaler]

/-- What a driver has programmed is the waveform of a state: the prescaler fits its field, the period and
the sample their registers, and a query whose clocks can be enabled reads back no more than was asked
for, with a period that falls short by less than the cycles of one count and one more, and one
nanosecond. -/
structure PwmDriverInfo.Programs (answers : PwmAnswers) (state : PwmState) (info : PwmDriverInfo) : Prop where
  prescale : 1 ≤ (pwmPrescale answers state).toNat ∧ (pwmPrescale answers state).toNat ≤ 4096
  field : mx3PwmcrPrescalerGet info.registers.pwmcr = pwmPrescale answers state
  period : info.registers.pwmpr.toNat ≤ 0xFFFE
  sample : info.registers.pwmsar.toNat ≤ info.registers.pwmpr.toNat + 2
  readBack : ∀ later old, PwmAnswers.Enables later → later.rate = answers.rate →
    let back := (pwmDriverGetState later info old).2.2
    back.period ≤ state.period ∧ back.dutyCycle ≤ state.dutyCycle ∧
      state.period.toNat * answers.rate.toNat <
        back.period.toNat * answers.rate.toNat +
          ((mx3PwmcrPrescalerGet info.registers.pwmcr).toNat + 1) * 1000000000 + answers.rate.toNat

/-- The count of a period and its prescaler make up its cycles, but for less than the prescaler. -/
theorem count_mul_prescale (ns : ℕ) :
    let count := cyclesAt66 ns / prescaleAt66 ns
    count * prescaleAt66 ns ≤ cyclesAt66 ns ∧ cyclesAt66 ns < count * prescaleAt66 ns + prescaleAt66 ns := by
  have hpos : 0 < prescaleAt66 ns := Nat.succ_pos _
  have hdivision := Nat.div_add_mod' (cyclesAt66 ns) (prescaleAt66 ns)
  have hrest := Nat.mod_lt (cyclesAt66 ns) hpos
  omega

/-- A period of at least 1000 ns has more than two counts. -/
theorem two_lt_count {ns : ℕ} (h : 1000 ≤ ns) : 2 < cyclesAt66 ns / prescaleAt66 ns := by
  have hcycles : 66 ≤ cyclesAt66 ns := by
    unfold cyclesAt66
    omega
  refine Nat.lt_of_lt_of_le (by decide : 2 < 3) ((Nat.le_div_iff_mul_le (Nat.succ_pos _)).mpr ?_)
  omega

/-- A smaller time has no more cycles. -/
theorem cyclesAt66_mono {shorter longer : ℕ} (h : shorter ≤ longer) :
    cyclesAt66 shorter ≤ cyclesAt66 longer :=
  Nat.div_le_div_right (Nat.mul_le_mul_left _ h)

/-- The prescaler that is programmed is the one computed, when it fits. -/
theorem pwmControl_prescalerGet {answers : PwmAnswers} {state : PwmState}
    (hprescale : 1 ≤ (pwmPrescale answers state).toNat ∧ (pwmPrescale answers state).toNat ≤ 4096) :
    mx3PwmcrPrescalerGet (pwmControl answers state) = pwmPrescale answers state := by
  have hfield := pwmControl_prescaler answers state
  generalize pwmPrescale answers state = prescale at hprescale hfield ⊢
  unfold mx3PwmcrPrescalerGet
  bv_omega

/-- A count under its prescaler takes no longer than the cycles that it was made of. -/
theorem readBack_le {count prescale ns : ℕ} (h : count * prescale ≤ cyclesAt66 ns) :
    (1000000000 * count * prescale) ⌈/⌉ 66000000 ≤ ns := by
  rw [Nat.mul_assoc]
  refine (ceilDiv_le_iff_le_mul (by decide)).mpr ?_
  unfold cyclesAt66 at h
  omega

/-- A count under its prescaler takes as long as the cycles that it was made of, but for less than the
prescaler and one cycle more. -/
theorem lt_readBack {count prescale ns : ℕ} (h : cyclesAt66 ns < count * prescale + prescale) :
    ns * 66000000 < ((1000000000 * count * prescale) ⌈/⌉ 66000000) * 66000000 +
      (prescale + 1) * 1000000000 + 66000000 := by
  have hback : 1000000000 * count * prescale ≤ 66000000 * ((1000000000 * count * prescale) ⌈/⌉ 66000000) :=
    le_smul_ceilDiv (show 0 < 66000000 by decide)
  rw [Nat.mul_assoc] at hback ⊢
  unfold cyclesAt66 at h
  omega

/-- The driver programs the waveform of a state up to the period whose prescaler fits. -/
theorem programmed_programs {answers : PwmAnswers} (hrate : answers.rate = 66000000) {state : PwmState}
    (hperiod : 1000 ≤ state.period.toNat) (hfits : state.period.toNat ≤ 4067203878)
    (hduty : state.dutyCycle ≤ state.period) (cstate : PwmState) (info : PwmDriverInfo) :
    (info.programmed answers cstate state).Programs answers state := by
  have hwidth : state.period.toNat < 4294967296 := by omega
  have hdutyLe : state.dutyCycle.toNat ≤ state.period.toNat := hduty
  have hprescale := pwmPrescale_toNat hrate hwidth
  have hpr := pwmPeriodCycles_toNat hrate hwidth
  have hsar := pwmDutyCycles_toNat hrate hwidth (hdutyLe.trans_lt hwidth)
  have hbounds : 1 ≤ (pwmPrescale answers state).toNat ∧ (pwmPrescale answers state).toNat ≤ 4096 := by
    rw [hprescale]
    exact ⟨Nat.succ_pos _, (prescale_le_iff _).mpr hfits⟩
  have hget := pwmControl_prescalerGet hbounds
  have hgetNat : (mx3PwmcrPrescalerGet (pwmControl answers state)).toNat =
      prescaleAt66 state.period.toNat := by
    rw [hget, hprescale]
  have hcountLt := cycles_div_prescale_lt state.period.toNat
  have hcount := two_lt_count hperiod
  obtain ⟨hcycles, hrest⟩ := count_mul_prescale state.period.toNat
  have hdutyCount : cyclesAt66 state.dutyCycle.toNat / prescaleAt66 state.period.toNat ≤
      cyclesAt66 state.period.toNat / prescaleAt66 state.period.toNat :=
    Nat.div_le_div_right (cyclesAt66_mono hdutyLe)
  refine ⟨hbounds, hget, ?_, ?_, fun later old henables hlater => ?_⟩
  · change (pwmPeriodCycles answers state).toNat ≤ 0xFFFE
    omega
  · change (pwmDutyCycles answers state).toNat ≤ (pwmPeriodCycles answers state).toNat + 2
    omega
  · obtain ⟨hperiodBack, hdutyBack⟩ := pwmDriverGetState_times henables (hlater.trans hrate)
      (info.programmed answers cstate state) hgetNat ((prescale_le_iff _).mpr hfits)
      (show (pwmPeriodCycles answers state).toNat + 2 = _ by omega) hcountLt rfl hsar
      (hdutyCount.trans_lt hcountLt) old
    refine ⟨?_, ?_, ?_⟩
    · rw [BitVec.le_def, hperiodBack]
      exact readBack_le hcycles
    · rw [BitVec.le_def, hdutyBack]
      exact readBack_le (Nat.div_mul_le_self _ _)
    · change _ < _ + ((mx3PwmcrPrescalerGet (pwmControl answers state)).toNat + 1) * _ + _
      rw [hperiodBack, hgetNat, hrate]
      exact lt_readBack hrest

/-- `pwm_driver_apply` returns an error or programs the waveform exactly when the clocks are off and cannot
be enabled or the period is at most 4067203878 ns. -/
theorem pwmDriverApply_programs_iff {answers : PwmAnswers} (hrate : answers.rate = 66000000)
    {state : PwmState} (hperiod : 1000 ≤ state.period.toNat) (hwidth : state.period.toNat < 4294967296)
    (hduty : state.dutyCycle ≤ state.period) (cstate : PwmState) (info : PwmDriverInfo) :
    ((pwmDriverApply answers cstate state info).1 ≠ 0 ∨
        (pwmDriverApply answers cstate state info).2.Programs answers state) ↔
      cstate.enabled = false ∧ ¬answers.Enables ∨ state.period.toNat ≤ 4067203878 := by
  by_cases hfails : cstate.enabled = false ∧ ¬answers.Enables
  · exact iff_of_true (.inl (pwmDriverApply_of_not_enables hfails.1 hfails.2 state info).1) (.inl hfails)
  · have henables : cstate.enabled = true ∨ answers.Enables := by
      cases hcached : cstate.enabled with
      | true => exact .inl rfl
      | false => exact .inr (not_not.mp fun h => hfails ⟨hcached, h⟩)
    rw [pwmDriverApply_of_enables henables]
    constructor
    · rintro (hret | hprograms)
      · exact absurd rfl hret
      · have hprescale := hprograms.prescale.2
        rw [pwmPrescale_toNat hrate hwidth] at hprescale
        exact .inr ((prescale_le_iff _).mp hprescale)
    · rintro (hcannot | hfits)
      · exact absurd hcannot hfails
      · exact .inr (programmed_programs hrate hperiod hfits hduty cstate info)

/-- A driver of a channel that is off, and its state. -/
def offInfo : PwmDriverInfo := ⟨⟨0, 0, 0⟩, 0, 0, 0⟩

/-- A state that is off. -/
def offState : PwmState := ⟨0, 0, .normal, false⟩

/-- A period of 20 ms is programmed. -/
theorem pwmDriverApply_programs_twentyMs :
    (pwmDriverApply .idle offState ⟨20000000, 1500000, .normal, true⟩ offInfo).1 ≠ 0 ∨
      (pwmDriverApply .idle offState ⟨20000000, 1500000, .normal, true⟩ offInfo).2.Programs .idle
        ⟨20000000, 1500000, .normal, true⟩ :=
  (pwmDriverApply_programs_iff rfl (by decide) (by decide) (by decide) offState offInfo).mpr
    (.inr (by decide))

/-- The longest period of 32 bits needs the prescaler 4326, of which the field keeps 230: the query reads
back 228 ms and not 4.29 s. -/
theorem pwmDriverApply_prescaler_wraps :
    ¬ (∀ (answers : PwmAnswers) (state cstate : PwmState) (info : PwmDriverInfo), answers.rate = 66000000 →
      1000 ≤ state.period.toNat → state.period.toNat < 4294967296 → state.dutyCycle ≤ state.period →
        (pwmDriverApply answers cstate state info).1 ≠ 0 ∨
          (pwmDriverApply answers cstate state info).2.Programs answers state) ∧
      (let state : PwmState := ⟨4294967295, 2000000000, .normal, true⟩
        let result := pwmDriverApply .idle offState state offInfo
        result.1 = 0 ∧ (pwmPrescale .idle state).toNat = 4326 ∧
          (mx3PwmcrPrescalerGet result.2.registers.pwmcr).toNat = 230 ∧
          (pwmDriverGetState .idle result.2 state).2.2.period.toNat = 228348182) := by
  refine ⟨fun h => ?_, by decide +kernel⟩
  rcases h .idle ⟨4294967295, 2000000000, .normal, true⟩ offState offInfo rfl (by decide) (by decide)
    (by decide) with hret | hprograms
  · exact hret (by decide +kernel)
  · exact absurd hprograms.prescale.2 (by decide +kernel)

end RemoteManage.KernelModule

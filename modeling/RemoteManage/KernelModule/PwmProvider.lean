import RemoteManage.Foundation.BitField

/-!
# The PWM provider driver

`kernel_pwm.c` drives one PWM channel through its control, sample and period registers. The period
decides a prescaler, which goes into a field of the control register; both clocks are held while the
channel is on. A register holds what was last written to it. What the hardware answers during a call
is a parameter of the call, and `unsigned long` has 32 bits.
-/

namespace RemoteManage.KernelModule

open RemoteManage.Foundation

/-- `MX3_PWMCR_EN`. -/
def mx3PwmcrEn : BitVec 32 := 1 <<< 0

/-- `MX3_PWMCR_SWR`. -/
def mx3PwmcrSwr : BitVec 32 := 1 <<< 3

/-- `MX3_PWMCR_STOPEN`. -/
def mx3PwmcrStopen : BitVec 32 := 1 <<< 25

/-- `MX3_PWMCR_DOZEN`. -/
def mx3PwmcrDozen : BitVec 32 := 1 <<< 24

/-- `MX3_PWMCR_WAITEN`. -/
def mx3PwmcrWaiten : BitVec 32 := 1 <<< 23

/-- `MX3_PWMCR_DBGEN`. -/
def mx3PwmcrDbgen : BitVec 32 := 1 <<< 22

/-- `MX3_PWMCR_CLKSRC_IPG_HIGH` in the field `MX3_PWMCR_CLKSRC`. -/
def mx3PwmcrClksrcIpgHigh : BitVec 32 := fieldPrep 17 16 2

/-- `MX3_PWMCR_PRESCALER_SET`. -/
def mx3PwmcrPrescalerSet (x : BitVec 32) : BitVec 32 := fieldPrep 15 4 (x - 1)

/-- `MX3_PWMCR_PRESCALER_GET`. -/
def mx3PwmcrPrescalerGet (x : BitVec 32) : BitVec 32 := fieldGet 15 4 x + 1

/-- `MX3_PWMCR_POUTC_INVERTED` in the field `MX3_PWMCR_POUTC`. -/
def mx3PwmcrPoutcInverted : BitVec 32 := fieldPrep 19 18 1

/-- `MX3_PWMSR_FIFOAV`. -/
def mx3PwmsrFifoav : BitVec 32 := genmask 32 2 0

/-- `MX3_PWMPR_MAX`. -/
def mx3PwmprMax : BitVec 32 := 0xfffe

/-- `MX3_PWM_SWR_LOOP`. -/
def mx3PwmSwrLoop : ℕ := 5

/-- `NSEC_PER_SEC`. -/
def nsecPerSec : BitVec 64 := 1000000000

/-- `enum pwm_polarity`. -/
inductive PwmPolarity where
  | normal
  | inversed
  deriving DecidableEq, Repr

/-- `struct pwm_state`. -/
structure PwmState where
  period : BitVec 64
  dutyCycle : BitVec 64
  polarity : PwmPolarity
  enabled : Bool
  deriving DecidableEq, Repr

/-- The registers that the driver writes. -/
structure PwmRegisters where
  pwmcr : BitVec 32
  pwmsar : BitVec 32
  pwmpr : BitVec 32
  deriving DecidableEq, Repr

/-- The enable bit is set. -/
def PwmRegisters.enabled (registers : PwmRegisters) : Bool := registers.pwmcr &&& mx3PwmcrEn ≠ 0

/-- `struct pwm_driver_info`, with the registers behind `mmio_base` and the references that are held on
the two clocks. -/
structure PwmDriverInfo where
  registers : PwmRegisters
  dutyCycle : BitVec 32
  clkIpg : ℤ
  clkPer : ℤ
  deriving DecidableEq, Repr

/-- What is answered during a call: the results of enabling the two clocks, the rate of `clk_per`, the
registers at each poll after a reset, each reading of the counter, and the status register after some
of them. -/
structure PwmAnswers where
  enableIpg : Int32
  enablePer : Int32
  rate : BitVec 32
  reset : ℕ → PwmRegisters
  counter : ℕ → BitVec 32
  status : ℕ → BitVec 32

/-- Both clocks can be enabled. -/
def PwmAnswers.Enables (answers : PwmAnswers) : Prop := answers.enableIpg = 0 ∧ answers.enablePer = 0

instance (answers : PwmAnswers) : Decidable answers.Enables :=
  inferInstanceAs (Decidable (_ ∧ _))

/-- Both clocks can be enabled, that of the channel has 66 MHz, and all registers read zero. -/
def PwmAnswers.idle : PwmAnswers := ⟨0, 0, 66000000, fun _ => ⟨0, 0, 0⟩, fun _ => 0, fun _ => 0⟩

/-- `pwm_clk_enable`. -/
def pwmClkEnable (answers : PwmAnswers) (info : PwmDriverInfo) : Int32 × PwmDriverInfo :=
  if answers.enableIpg ≠ 0 then (answers.enableIpg, info)
  else
    let info := { info with clkIpg := info.clkIpg + 1 }
    if answers.enablePer ≠ 0 then (answers.enablePer, { info with clkIpg := info.clkIpg - 1 })
    else (0, { info with clkPer := info.clkPer + 1 })

/-- `pwm_clk_disable`. -/
def pwmClkDisable (info : PwmDriverInfo) : PwmDriverInfo :=
  { info with clkPer := info.clkPer - 1, clkIpg := info.clkIpg - 1 }

/-- `DIV_ROUND_UP_ULL`. -/
def divRoundUpUll (n : BitVec 64) (d : BitVec 32) : BitVec 64 := (n + d.setWidth 64 - 1) / d.setWidth 64

/-- `pwm_driver_get_state`: what it returns, the driver and the state afterwards. -/
def pwmDriverGetState (answers : PwmAnswers) (info : PwmDriverInfo) (state : PwmState) :
    Int32 × PwmDriverInfo × PwmState :=
  let (ret, info) := pwmClkEnable answers info
  if ret ≠ 0 then (ret, info, state)
  else
    let enabled := info.registers.enabled
    let poutc := fieldGet 19 18 info.registers.pwmcr
    -- any other value of the field keeps what the caller had in the state
    let polarity := if poutc = 0 then .normal else if poutc = 1 then .inversed else state.polarity
    let prescaler := (mx3PwmcrPrescalerGet info.registers.pwmcr).setWidth 64
    let period := if info.registers.pwmpr ≥ mx3PwmprMax then mx3PwmprMax else info.registers.pwmpr
    let periodNs := divRoundUpUll (nsecPerSec * (period + 2).setWidth 64 * prescaler) answers.rate
    let val := if enabled then info.registers.pwmsar else info.dutyCycle
    let info := if enabled then info else pwmClkDisable info
    let dutyNs := divRoundUpUll (nsecPerSec * val.setWidth 64 * prescaler) answers.rate
    (0, info, ⟨periodNs, dutyNs, polarity, enabled⟩)

/-- The polls of `pwm_sw_reset`, with so many left after this one: the registers at the last. -/
def swResetPolls (reset : ℕ → PwmRegisters) : (left poll : ℕ) → PwmRegisters
  | 0, poll => reset poll
  | left + 1, poll =>
    if (reset poll).pwmcr &&& mx3PwmcrSwr ≠ 0 then swResetPolls reset left (poll + 1) else reset poll

/-- `pwm_sw_reset`. -/
def pwmSwReset (answers : PwmAnswers) (info : PwmDriverInfo) : PwmDriverInfo :=
  { info with registers := swResetPolls answers.reset mx3PwmSwrLoop 0 }

/-- How often `pwm_driver_apply` reads the counter before it writes the sample: until the end of the
period is not that near, or the timeout is over. -/
def counterReads (counter : ℕ → BitVec 32) (periodCycles counterCheck : BitVec 32) :
    (timeout reads : ℕ) → ℕ
  | 0, reads => reads
  | timeout + 1, reads =>
    if periodCycles - counter reads < counterCheck then
      counterReads counter periodCycles counterCheck timeout (reads + 1)
    else reads + 1

/-- A time in cycles of the clock, as `pwm_driver_apply` computes it. -/
def clkCycles (answers : PwmAnswers) (ns : BitVec 64) : BitVec 32 :=
  (answers.rate.setWidth 64 * ns / nsecPerSec).setWidth 32

/-- `prescale` in `pwm_driver_apply`. -/
def pwmPrescale (answers : PwmAnswers) (state : PwmState) : BitVec 32 :=
  clkCycles answers state.period / 0x10000 + 1

/-- `period_cycles` in `pwm_driver_apply`, as it is written to the register. -/
def pwmPeriodCycles (answers : PwmAnswers) (state : PwmState) : BitVec 32 :=
  let periodCycles := clkCycles answers state.period / pwmPrescale answers state
  if periodCycles > 2 then periodCycles - 2 else 0

/-- `duty_cycles` in `pwm_driver_apply`. -/
def pwmDutyCycles (answers : PwmAnswers) (state : PwmState) : BitVec 32 :=
  clkCycles answers state.dutyCycle / pwmPrescale answers state

/-- The writes of `pwm_driver_apply` to the sample register. A duty below the one before may follow a
second write of that one. -/
def pwmWriteSar (answers : PwmAnswers) (state : PwmState) (info : PwmDriverInfo) : PwmDriverInfo :=
  let dutyCycles := pwmDutyCycles answers state
  if dutyCycles < info.dutyCycle then
    let counterCheck := clkCycles answers 1500
    let reads :=
      if state.period ≥ 2000 then
        counterReads answers.counter (pwmPeriodCycles answers state) counterCheck 1000 0
      else 0
    let info :=
      if mx3PwmsrFifoav &&& answers.status reads = 0 then
        { info with registers := { info.registers with pwmsar := info.dutyCycle } }
      else info
    { info with registers := { info.registers with pwmsar := dutyCycles } }
  else { info with registers := { info.registers with pwmsar := dutyCycles } }

/-- `cr` in `pwm_driver_apply`. -/
def pwmControl (answers : PwmAnswers) (state : PwmState) : BitVec 32 :=
  let cr := mx3PwmcrPrescalerSet (pwmPrescale answers state) ||| mx3PwmcrStopen ||| mx3PwmcrDozen |||
    mx3PwmcrWaiten ||| mx3PwmcrClksrcIpgHigh ||| mx3PwmcrDbgen
  let cr := if state.polarity = .inversed then cr ||| mx3PwmcrPoutcInverted else cr
  if state.enabled then cr ||| mx3PwmcrEn else cr

/-- `pwm_driver_apply` under a cached state, without `pwm_wait_fifo_slot`, which only waits: what it
returns and the driver afterwards. -/
def pwmDriverApply (answers : PwmAnswers) (cstate state : PwmState) (info : PwmDriverInfo) :
    Int32 × PwmDriverInfo :=
  let (ret, info) := if cstate.enabled then (0, info) else pwmClkEnable answers info
  if ret ≠ 0 then (ret, info)
  else
    let info := if cstate.enabled then info else pwmSwReset answers info
    let info := pwmWriteSar answers state info
    let info := { info with dutyCycle := pwmDutyCycles answers state }
    let info := { info with registers := { info.registers with pwmpr := pwmPeriodCycles answers state } }
    let info := { info with registers := { info.registers with pwmcr := pwmControl answers state } }
    (0, if state.enabled then info else pwmClkDisable info)

/-- Two clocks that can be enabled get a reference each. -/
theorem pwmClkEnable_of_enables {answers : PwmAnswers} (h : answers.Enables) (info : PwmDriverInfo) :
    pwmClkEnable answers info =
      (0, { info with clkIpg := info.clkIpg + 1, clkPer := info.clkPer + 1 }) := by
  simp [pwmClkEnable, h.1, h.2]

/-- A clock that cannot be enabled fails the call, and no reference is left. -/
theorem pwmClkEnable_of_not_enables {answers : PwmAnswers} (h : ¬answers.Enables) (info : PwmDriverInfo) :
    (pwmClkEnable answers info).1 ≠ 0 ∧ (pwmClkEnable answers info).2 = info := by
  unfold pwmClkEnable
  by_cases hipg : answers.enableIpg = 0
  · have hper : answers.enablePer ≠ 0 := fun hper => h ⟨hipg, hper⟩
    simp [hipg, hper]
  · simp [hipg]

/-- The sample register is left with the new duty. -/
theorem pwmWriteSar_eq (answers : PwmAnswers) (state : PwmState) (info : PwmDriverInfo) :
    pwmWriteSar answers state info =
      { info with registers := { info.registers with pwmsar := pwmDutyCycles answers state } } := by
  unfold pwmWriteSar
  dsimp only
  generalize (if state.period ≥ 2000 then _ else 0) = reads
  split
  · split <;> rfl
  · rfl

/-- What `pwm_driver_apply` programs, and the references it holds afterwards on both clocks. -/
def PwmDriverInfo.programmed (answers : PwmAnswers) (cstate state : PwmState) (info : PwmDriverInfo) :
    PwmDriverInfo :=
  let change := (if cstate.enabled then 0 else 1) - if state.enabled then 0 else 1
  ⟨⟨pwmControl answers state, pwmDutyCycles answers state, pwmPeriodCycles answers state⟩,
    pwmDutyCycles answers state, info.clkIpg + change, info.clkPer + change⟩

/-- `pwm_driver_apply` programs the state, if the clocks are on or can be enabled. -/
theorem pwmDriverApply_of_enables {answers : PwmAnswers} {cstate : PwmState}
    (h : cstate.enabled = true ∨ answers.Enables) (state : PwmState) (info : PwmDriverInfo) :
    pwmDriverApply answers cstate state info = (0, info.programmed answers cstate state) := by
  unfold pwmDriverApply PwmDriverInfo.programmed
  cases hcached : cstate.enabled with
  | true =>
    cases state.enabled <;> simp [pwmWriteSar_eq, pwmClkDisable, ← sub_eq_add_neg]
  | false =>
    have henables : answers.Enables := h.resolve_left (by simp [hcached])
    cases state.enabled <;>
      simp [pwmClkEnable_of_enables henables, pwmWriteSar_eq, pwmSwReset, pwmClkDisable]

/-- `pwm_driver_apply` fails and does nothing, if the clocks are off and cannot be enabled. -/
theorem pwmDriverApply_of_not_enables {answers : PwmAnswers} {cstate : PwmState}
    (hcached : cstate.enabled = false) (h : ¬answers.Enables) (state : PwmState) (info : PwmDriverInfo) :
    (pwmDriverApply answers cstate state info).1 ≠ 0 ∧
      (pwmDriverApply answers cstate state info).2 = info := by
  obtain ⟨hret, hinfo⟩ := pwmClkEnable_of_not_enables h info
  simp only [pwmDriverApply, hcached, Bool.false_eq_true, if_false]
  rw [if_pos hret]
  exact ⟨hret, hinfo⟩

/-- A field of the control register is made of those of its parts. -/
theorem fieldGet_pwmControl (answers : PwmAnswers) (state : PwmState) (high low : ℕ)
    (hflags : fieldGet high low (mx3PwmcrStopen ||| mx3PwmcrDozen ||| mx3PwmcrWaiten |||
      mx3PwmcrClksrcIpgHigh ||| mx3PwmcrDbgen ||| mx3PwmcrPoutcInverted) = 0#32) :
    fieldGet high low (pwmControl answers state) =
      fieldGet high low (mx3PwmcrPrescalerSet (pwmPrescale answers state)) |||
        if state.enabled then fieldGet high low mx3PwmcrEn else 0#32 := by
  simp only [fieldGet_or, BitVec.or_eq_zero_iff] at hflags
  obtain ⟨⟨⟨⟨⟨hstopen, hdozen⟩, hwaiten⟩, hclksrc⟩, hdbgen⟩, hpoutc⟩ := hflags
  unfold pwmControl
  cases state.enabled <;> cases state.polarity <;>
    simp [fieldGet_or, hstopen, hdozen, hwaiten, hclksrc, hdbgen, hpoutc]

/-- The enable bit of the control register is that of the state. -/
theorem pwmControl_enabled (answers : PwmAnswers) (state : PwmState) (sar pr : BitVec 32) :
    (PwmRegisters.mk (pwmControl answers state) sar pr).enabled = state.enabled := by
  have hmask : pwmControl answers state &&& mx3PwmcrEn = fieldGet 0 0 (pwmControl answers state) :=
    (BitVec.ushiftRight_zero _).symm
  rw [PwmRegisters.enabled, hmask, fieldGet_pwmControl answers state 0 0 (by decide), mx3PwmcrPrescalerSet,
    fieldGet_fieldPrep_of_disjoint (by decide), BitVec.zero_or]
  cases state.enabled <;> decide

/-- The prescaler field of the control register has twelve bits of the prescaler less one. -/
theorem pwmControl_prescaler (answers : PwmAnswers) (state : PwmState) :
    (fieldGet 15 4 (pwmControl answers state)).toNat = (pwmPrescale answers state - 1).toNat % 4096 := by
  have hen : fieldGet 15 4 mx3PwmcrEn = 0#32 := by decide
  rw [fieldGet_pwmControl answers state 15 4 (by decide), hen, ite_self, BitVec.or_zero, mx3PwmcrPrescalerSet]
  exact toNat_fieldGet_fieldPrep (by decide) _

end RemoteManage.KernelModule

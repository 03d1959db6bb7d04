import RemoteManage.Foundation.Transition
import RemoteManage.KernelModule.PwmProvider

/-!
# The clock references of the PWM provider

`pwm_driver_probe` keeps its reference when the channel is on. `pwm_driver_apply` takes one when the
cached state is off and drops one when the new state is off. `pwm_driver_get_state` takes one always,
but drops it only when the channel is off, so that each query of a running channel leaves one behind.
-/

namespace RemoteManage.KernelModule

open RemoteManage.Foundation

/-- What `pwm_driver_probe` obtains besides the clock references. -/
structure PwmResources where
  memory : Bool
  clkIpg : Bool
  clkPer : Bool
  mmio : Bool
  chipAdd : Int32
  deriving DecidableEq, Repr

/-- `pwm_driver_probe` over the registers as they are: what it returns and the driver afterwards. -/
def pwmDriverProbe (resources : PwmResources) (answers : PwmAnswers) (registers : PwmRegisters) :
    Int32 × PwmDriverInfo :=
  let info : PwmDriverInfo := ⟨registers, 0, 0, 0⟩
  let enomem : Int32 := 12
  let enxio : Int32 := 6
  if !resources.memory then (-enomem, info)
  else if !resources.clkIpg then (-enxio, info)
  else if !resources.clkPer then (-enxio, info)
  else
    let (ret, info) := pwmClkEnable answers info
    if ret ≠ 0 then (ret, info)
    else if !resources.mmio then (-enxio, info)
    else
      let info := if info.registers.enabled then info else pwmClkDisable info
      let info := { info with dutyCycle := 0 }
      if resources.chipAdd ≠ 0 then (resources.chipAdd, info) else (0, info)

/-- One reference is held on each clock when the channel is on, and none when it is off. -/
def PwmDriverInfo.Balanced (info : PwmDriverInfo) : Prop :=
  info.clkIpg = (if info.registers.enabled then 1 else 0) ∧
    info.clkPer = if info.registers.enabled then 1 else 0

instance (info : PwmDriverInfo) : Decidable info.Balanced :=
  inferInstanceAs (Decidable (_ ∧ _))

/-- A successful probe leaves the references balanced and the registers as they were. -/
theorem pwmDriverProbe_balanced {resources : PwmResources} {answers : PwmAnswers} {registers : PwmRegisters}
    (h : (pwmDriverProbe resources answers registers).1 = 0) :
    (pwmDriverProbe resources answers registers).2.Balanced ∧
      (pwmDriverProbe resources answers registers).2.registers = registers := by
  -- what the probe asks for is there, or it would have returned an error
  have hmemory : resources.memory = true := by
    by_contra hnot
    simp [pwmDriverProbe, Bool.eq_false_of_not_eq_true hnot] at h
  have hipg : resources.clkIpg = true := by
    by_contra hnot
    simp [pwmDriverProbe, hmemory, Bool.eq_false_of_not_eq_true hnot] at h
  have hper : resources.clkPer = true := by
    by_contra hnot
    simp [pwmDriverProbe, hmemory, hipg, Bool.eq_false_of_not_eq_true hnot] at h
  have henables : answers.Enables := by
    by_contra hnot
    have hret := (pwmClkEnable_of_not_enables hnot ⟨registers, 0, 0, 0⟩).1
    simp only [pwmDriverProbe, hmemory, hipg, hper, Bool.not_true, Bool.false_eq_true, if_false, ne_eq] at h
    rw [if_pos hret] at h
    exact hret h
  have hmmio : resources.mmio = true := by
    by_contra hnot
    simp [pwmDriverProbe, hmemory, hipg, hper, pwmClkEnable_of_enables henables,
      Bool.eq_false_of_not_eq_true hnot] at h
  have hadd : resources.chipAdd = 0 := by
    by_contra hnot
    simp [pwmDriverProbe, hmemory, hipg, hper, pwmClkEnable_of_enables henables, hmmio, hnot] at h
  simp only [pwmDriverProbe, hmemory, hipg, hper, pwmClkEnable_of_enables henables, hmmio, hadd]
  cases hon : registers.enabled <;> simp [hon, pwmClkDisable, PwmDriverInfo.Balanced]

/-- The driver under the framework, which caches the last state applied. -/
structure PwmChannel where
  info : PwmDriverInfo
  cached : PwmState
  deriving DecidableEq, Repr

/-- A call of the framework, with what is answered during it. -/
inductive PwmCall where
  | apply (state : PwmState) (answers : PwmAnswers)
  | getState (state : PwmState) (answers : PwmAnswers)

namespace PwmChannel

/-- One call whose clock enables succeed. A state is cached once it has been applied. -/
def step (channel : PwmChannel) : PwmCall → Option PwmChannel
  | .apply state answers =>
    if answers.Enables then
      let result := pwmDriverApply answers channel.cached state channel.info
      some ⟨result.2, if result.1 = 0 then state else channel.cached⟩
    else none
  | .getState state answers =>
    if answers.Enables then some { channel with info := (pwmDriverGetState answers channel.info state).2.1 }
    else none

/-- The call is not a query while the channel is on. -/
def DropsReference (channel : PwmChannel) : PwmCall → Prop
  | .apply _ _ => True
  | .getState _ _ => channel.info.registers.enabled = false

instance (channel : PwmChannel) : (call : PwmCall) → Decidable (channel.DropsReference call)
  | .apply _ _ => inferInstanceAs (Decidable True)
  | .getState _ _ => inferInstanceAs (Decidable (_ = false))

/-- The references are balanced, and the cached state is on when the channel is. -/
structure Invariant (channel : PwmChannel) : Prop where
  balanced : channel.info.Balanced
  cached : channel.cached.enabled = channel.info.registers.enabled

/-- What a call does: it applies a state, or it queries one that is off, or one that is on. -/
theorem step_cases {channel next : PwmChannel} {call : PwmCall} (h : channel.step call = some next) :
    (∃ state answers, call = .apply state answers ∧
      next = ⟨channel.info.programmed answers channel.cached state, state⟩) ∨
    (∃ state answers, call = .getState state answers ∧ channel.info.registers.enabled = false ∧
      next = channel) ∨
    (∃ state answers, call = .getState state answers ∧ channel.info.registers.enabled = true ∧
      next = { channel with info :=
        { channel.info with clkIpg := channel.info.clkIpg + 1, clkPer := channel.info.clkPer + 1 } }) := by
  cases call with
  | apply state answers =>
    obtain ⟨henables, rfl⟩ := Transition.enabled_of_ite h
    left
    refine ⟨state, answers, rfl, ?_⟩
    rw [pwmDriverApply_of_enables (.inr henables)]
    rfl
  | getState state answers =>
    obtain ⟨henables, rfl⟩ := Transition.enabled_of_ite h
    right
    cases hon : channel.info.registers.enabled with
    | false =>
      left
      refine ⟨state, answers, rfl, rfl, ?_⟩
      simp [pwmDriverGetState, pwmClkEnable_of_enables henables, hon, pwmClkDisable]
    | true =>
      right
      refine ⟨state, answers, rfl, rfl, ?_⟩
      simp [pwmDriverGetState, pwmClkEnable_of_enables henables, hon]

/-- Every call keeps the cached state in agreement with the enable bit. -/
theorem step_cached {channel next : PwmChannel} {call : PwmCall} (h : channel.step call = some next)
    (hcached : channel.cached.enabled = channel.info.registers.enabled) :
    next.cached.enabled = next.info.registers.enabled := by
  obtain ⟨state, answers, -, rfl⟩ | ⟨state, answers, -, -, rfl⟩ | ⟨state, answers, -, -, rfl⟩ := step_cases h
  · exact (pwmControl_enabled answers state _ _).symm
  · exact hcached
  · exact hcached

/-- The references stay balanced exactly when the call drops the one it takes. -/
theorem step_balanced_iff {channel next : PwmChannel} {call : PwmCall} (h : channel.step call = some next)
    (hinv : channel.Invariant) : next.info.Balanced ↔ channel.DropsReference call := by
  obtain ⟨⟨hipg, hper⟩, hcached⟩ := hinv
  obtain ⟨state, answers, rfl, rfl⟩ | ⟨state, answers, rfl, hoff, rfl⟩ | ⟨state, answers, rfl, hon, rfl⟩ :=
    step_cases h
  · refine iff_of_true ?_ trivial
    have hen := pwmControl_enabled answers state (pwmDutyCycles answers state) (pwmPeriodCycles answers state)
    rw [← hcached] at hipg hper
    simp only [PwmDriverInfo.Balanced, PwmDriverInfo.programmed, hen, hipg, hper]
    cases channel.cached.enabled <;> cases state.enabled <;> decide
  · exact iff_of_true ⟨hipg, hper⟩ hoff
  · refine iff_of_false (fun hbalanced => ?_) (by simp [DropsReference, hon])
    have hnext := hbalanced.1
    rw [if_pos hon] at hipg hnext
    dsimp only at hnext
    omega

/-- The calls after a successful probe query only while the channel is off exactly when the references
are balanced in every state reached. -/
theorem run_balanced_iff {resources : PwmResources} {answers : PwmAnswers} {registers : PwmRegisters}
    (hprobe : (pwmDriverProbe resources answers registers).1 = 0) {cached : PwmState}
    (hcached : cached.enabled = registers.enabled) {calls : List PwmCall} {last : PwmChannel}
    (hrun : Transition.run step ⟨(pwmDriverProbe resources answers registers).2, cached⟩ calls = some last) :
    Transition.Along step DropsReference ⟨(pwmDriverProbe resources answers registers).2, cached⟩ calls ↔
      ∀ before after, calls = before ++ after → ∀ channel,
        Transition.run step ⟨(pwmDriverProbe resources answers registers).2, cached⟩ before = some channel →
          channel.info.Balanced := by
  obtain ⟨hbalanced, hregisters⟩ := pwmDriverProbe_balanced hprobe
  have hinit : cached.enabled = (pwmDriverProbe resources answers registers).2.registers.enabled := by
    rw [hregisters, hcached]
  have hreached := Transition.along_iff_reached DropsReference Invariant
    (fun channel call next hinv hdrops hnext =>
      ⟨(step_balanced_iff hnext hinv).mpr hdrops, step_cached hnext hinv.cached⟩)
    (fun channel call next hinv hnext hkept => (step_balanced_iff hnext hinv).mp hkept.balanced) hrun
    ⟨hbalanced, hinit⟩
  rw [hreached]
  have hkept : ∀ before channel,
      Transition.run step ⟨(pwmDriverProbe resources answers registers).2, cached⟩ before = some channel →
        channel.cached.enabled = channel.info.registers.enabled := fun before channel hbefore =>
    Transition.run_invariant (fun channel : PwmChannel =>
      channel.cached.enabled = channel.info.registers.enabled) (fun _ _ _ hc hnext => step_cached hnext hc)
      hbefore hinit
  constructor
  · intro hall before after hsplit channel hbefore
    exact (hall before after hsplit channel hbefore).balanced
  · intro hall before after hsplit channel hbefore
    exact ⟨hall before after hsplit channel hbefore, hkept before channel hbefore⟩

/-- A state with a period of 20 ms and a duty of 1.5 ms. -/
def sampleState (enabled : Bool) : PwmState := ⟨20000000, 1500000, .normal, enabled⟩

/-- Everything that the probe asks for is there. -/
def available : PwmResources := ⟨true, true, true, true, 0⟩

/-- A query, then the channel on and off again. -/
def offCalls : List PwmCall :=
  [.getState (sampleState false) .idle, .apply (sampleState true) .idle, .apply (sampleState false) .idle]

/-- A channel that is queried while off, switched on and switched off again is balanced all along. -/
theorem run_balanced_off :
    Transition.Along step DropsReference ⟨(pwmDriverProbe available .idle ⟨0, 0, 0⟩).2, sampleState false⟩
        offCalls ∧
      ∀ before after, offCalls = before ++ after → ∀ channel,
        Transition.run step ⟨(pwmDriverProbe available .idle ⟨0, 0, 0⟩).2, sampleState false⟩ before =
          some channel → channel.info.Balanced := by
  have hdrops : Transition.Along step DropsReference
      ⟨(pwmDriverProbe available .idle ⟨0, 0, 0⟩).2, sampleState false⟩ offCalls := by decide +kernel
  obtain ⟨last, hrun⟩ := Option.isSome_iff_exists.mp (show (Transition.run step
    ⟨(pwmDriverProbe available .idle ⟨0, 0, 0⟩).2, sampleState false⟩ offCalls).isSome by decide +kernel)
  exact ⟨hdrops, (run_balanced_iff (by decide) (by decide) hrun).mp hdrops⟩

/-- Each query of a running channel leaves a reference behind. -/
theorem run_query_unbalanced :
    ¬ (∀ (resources : PwmResources) (answers : PwmAnswers) (registers : PwmRegisters),
      (pwmDriverProbe resources answers registers).1 = 0 → ∀ cached : PwmState,
        cached.enabled = registers.enabled → ∀ calls channel,
          Transition.run step ⟨(pwmDriverProbe resources answers registers).2, cached⟩ calls = some channel →
            channel.info.Balanced) ∧
      (Transition.run step ⟨(pwmDriverProbe available .idle ⟨0, 0, 0⟩).2, sampleState false⟩
        [.apply (sampleState true) .idle, .getState (sampleState true) .idle,
          .getState (sampleState true) .idle]).map
        (fun channel => (channel.info.registers.enabled, channel.info.clkIpg, channel.info.clkPer)) =
          some (true, 3, 3) := by
  refine ⟨fun h => ?_, by decide +kernel⟩
  have hleft : (Transition.run step ⟨(pwmDriverProbe available .idle ⟨0, 0, 0⟩).2, sampleState false⟩
      [.apply (sampleState true) .idle, .getState (sampleState true) .idle]).map (fun channel =>
        decide channel.info.Balanced) = some false := by decide +kernel
  obtain ⟨channel, hchannel, hbalanced⟩ := Option.map_eq_some_iff.mp hleft
  exact of_decide_eq_false hbalanced
    (h available .idle ⟨0, 0, 0⟩ (by decide) (sampleState false) (by decide) _ channel hchannel)

end PwmChannel

end RemoteManage.KernelModule

import Mathlib.Algebra.Order.Ring.Nat
import RemoteManage.Common.TimerManage
import RemoteManage.LoggerTool.LogProcess

/-!
# The seconds that the login measures

`login` measures how long a client has been silent by the difference of two readings of
`xGetCurrentTimes`. The clock counts milliseconds in 32 bits and its readings are in seconds. The difference
is taken modulo `2^32` as well, but the seconds go round at `2^32 / 1000`, so it is off by
about `2^32` seconds when the milliseconds have wrapped between the readings.
-/

namespace RemoteManage.LoggerTool

open RemoteManage.Foundation RemoteManage.Common

variable {F : Type*}

/-- The timer after some events since its start. -/
def timerAfter (events : List (TimerEvent F)) : TimerManage F :=
  Mealy.after timerStep (.init timeInterval) events

/-- The milliseconds that pass with some events. -/
def elapsedMs (events : List (TimerEvent F)) : ℕ :=
  events.countP TimerEvent.isTick * timeInterval.toNat

/-- The difference that `login` takes between a reading behind some events and one behind some more. -/
def measuredSeconds (earlier more : List (TimerEvent F)) : UInt32 :=
  xGetCurrentTimes (timerAfter (earlier ++ more)) - xGetCurrentTimes (timerAfter earlier)

/-- The elapsed seconds are measured to within one second, and a client that was active at the earlier
reading is still logged in at the later one. -/
structure MeasuresElapsed (earlier more : List (TimerEvent F)) : Prop where
  upper : (measuredSeconds earlier more).toNat ≤ elapsedMs more / 1000 + 1
  lower : elapsedMs more / 1000 ≤ (measuredSeconds earlier more).toNat + 1
  login : ∀ (config : LoggerPrivilege) (s : LogProcess) (ptr : List UInt8), s.isLogin = true →
    s.lastLoginTimers = xGetCurrentTimes (timerAfter earlier) →
      (login config (xGetCurrentTimes (timerAfter (earlier ++ more))) s ptr).1.isLogin = true ∧
        (login config (xGetCurrentTimes (timerAfter (earlier ++ more))) s ptr).2 = true

/-- Times of events in a row add up. -/
theorem elapsedMs_append (earlier more : List (TimerEvent F)) :
    elapsedMs (earlier ++ more) = elapsedMs earlier + elapsedMs more := by
  simp only [elapsedMs, List.countP_append, Nat.add_mul]

/-- Some ticks in a row. -/
theorem elapsedMs_replicate (n : ℕ) : elapsedMs (List.replicate n (.tick : TimerEvent F)) = n * 100 :=
  congrArg (· * 100) (List.countP_replicate.trans (if_pos rfl))

/-- The clock shows the milliseconds since the start, reduced to 32 bits, in seconds. -/
theorem toNat_xGetCurrentTimes (events : List (TimerEvent F)) :
    (xGetCurrentTimes (timerAfter events)).toNat = elapsedMs events % 2 ^ 32 / 1000 := by
  have hticks : (timerAfter events).ticks = .ofNat (elapsedMs events) := by
    rw [timerAfter, ticks_after, elapsedMs, UInt32.ofNat_mul]
    exact UInt32.zero_add _
  rw [xGetCurrentTimes, xGetCurrentTicks, hticks, UInt32.toNat_div, UInt32.toNat_ofNat']
  rfl

/-- Without a wrap between the readings their difference is that of the seconds since the start. -/
theorem toNat_measuredSeconds {earlier more : List (TimerEvent F)}
    (h : elapsedMs earlier / 2 ^ 32 = (elapsedMs earlier + elapsedMs more) / 2 ^ 32) :
    (measuredSeconds earlier more).toNat =
      (elapsedMs earlier % 2 ^ 32 + elapsedMs more) / 1000 - elapsedMs earlier % 2 ^ 32 / 1000 := by
  have hearlier := toNat_xGetCurrentTimes earlier
  have hlater := toNat_xGetCurrentTimes (earlier ++ more)
  rw [elapsedMs_append, show (elapsedMs earlier + elapsedMs more) % 2 ^ 32 =
    elapsedMs earlier % 2 ^ 32 + elapsedMs more by omega] at hlater
  rw [measuredSeconds, UInt32.toNat_sub_of_le _ _ (UInt32.le_iff_toNat_le.mpr (by omega)), hearlier, hlater]

/-- After a wrap the measured time is far longer than the timeout. -/
theorem div_eq_of_measuresElapsed {earlier more : List (TimerEvent F)} (hmore : elapsedMs more ≤ 600 * 1000)
    (h : MeasuresElapsed earlier more) :
    elapsedMs earlier / 2 ^ 32 = (elapsedMs earlier + elapsedMs more) / 2 ^ 32 := by
  by_contra hwrap
  have hearlier := toNat_xGetCurrentTimes earlier
  have hlater := toNat_xGetCurrentTimes (earlier ++ more)
  have hupper := h.upper
  rw [elapsedMs_append] at hlater
  rw [measuredSeconds, UInt32.toNat_sub, hearlier, hlater] at hupper
  omega

/-- A client is still logged in when no more than the timeout is measured. -/
theorem login_of_within (config : LoggerPrivilege) {now : UInt32} {s : LogProcess} (ptr : List UInt8)
    (hlogin : s.isLogin = true) (hnow : now - s.lastLoginTimers ≤ loginTimeout) :
    (login config now s ptr).1.isLogin = true ∧ (login config now s ptr).2 = true := by
  unfold login
  split
  · exact ⟨hlogin, rfl⟩
  · simp [hlogin, UInt32.not_lt.mpr hnow]

/-- Over at most 600 seconds the elapsed time is measured, and an active client stays logged in, exactly when
the milliseconds have not wrapped in between. -/
theorem measuresElapsed_iff (earlier more : List (TimerEvent F)) (hmore : elapsedMs more ≤ 600 * 1000) :
    MeasuresElapsed earlier more ↔
      elapsedMs earlier / 2 ^ 32 = (elapsedMs earlier + elapsedMs more) / 2 ^ 32 := by
  refine ⟨div_eq_of_measuresElapsed hmore, fun h => ?_⟩
  have hmeasured := toNat_measuredSeconds h
  constructor
  case upper => omega
  case lower => omega
  case login =>
    intro config s ptr hlogin hlast
    apply login_of_within config ptr hlogin
    rw [hlast]
    have htimeout : loginTimeout.toNat = 600 := rfl
    rw [UInt32.le_iff_toNat_le, htimeout]
    change (measuredSeconds earlier more).toNat ≤ 600
    omega

/-- The first tick is no wrap. -/
theorem measuresElapsed_iff_tick :
    MeasuresElapsed ([] : List (TimerEvent Unit)) [.tick] ↔
      elapsedMs ([] : List (TimerEvent Unit)) / 2 ^ 32 =
        (elapsedMs ([] : List (TimerEvent Unit)) + elapsedMs ([.tick] : List (TimerEvent Unit))) / 2 ^ 32 :=
  measuresElapsed_iff [] [.tick] (by decide)

/-- The tick with which the milliseconds wrap for the first time. -/
theorem not_measuresElapsed_wrap :
    ¬ MeasuresElapsed (List.replicate 42949672 (.tick : TimerEvent Unit)) [.tick] := by
  intro h
  have hearlier := elapsedMs_replicate (F := Unit) 42949672
  have hmore : elapsedMs [(.tick : TimerEvent Unit)] = 100 := rfl
  have hsame := div_eq_of_measuresElapsed (by rw [hmore]; decide) h
  rw [hearlier, hmore] at hsame
  exact absurd hsame (by decide)

end RemoteManage.LoggerTool

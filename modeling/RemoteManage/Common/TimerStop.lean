import RemoteManage.Foundation.Transition
import Mathlib.Logic.Function.Basic
import Mathlib.Order.Basic

/-!
# Stopping the timer thread

`timer_struct::stop` sets `stop_loop_` and wakes the thread that `start` has spawned, and the thread tests the
flag once in every round of its loop. The first thing the thread does is to clear the flag, so a stop that
comes before that is lost. A wake-up that falls between the test and the wait is not: the wait then ends with
the period, and the next test sees the flag.

A timer is started once. Any number of threads may stop it, before its own thread has begun as well. Each
access to the flag and each section under the mutex is one step. A wait may also end without a signal.
-/

namespace RemoteManage.Common

open RemoteManage.Foundation

/-- Where the thread of the timer is. -/
inductive RunPhase where
  /-- `start` has not been called. -/
  | notStarted
  /-- At the first statement of `run`. -/
  | spawned
  /-- Before the test of the flag. -/
  | testing
  /-- Inside the loop, before the wait. -/
  | entered
  /-- In `pthread_cond_timedwait`. -/
  | waiting
  /-- After a wait that a signal has ended. -/
  | signalled
  /-- After a wait that has timed out, before the handler is called. -/
  | timedOut
  /-- Behind the loop. -/
  | finished
  deriving DecidableEq, Repr

/-- Where a thread is in its call of `stop`. -/
inductive StopPhase where
  /-- In no call. -/
  | idle
  /-- It has found the flag cleared. -/
  | tested
  /-- It has set the flag, and the broadcast is still to come. -/
  | stored
  deriving DecidableEq, Repr

/-- `timer_struct` with the threads that use it. -/
structure TimerStruct (ι : Type*) where
  /-- `stop_loop_`. -/
  stopLoop : Bool
  /-- There is a `timeout_handler_`. -/
  timeoutHandler : Bool
  /-- Where the thread of the timer is. -/
  thread : RunPhase
  /-- Where the threads that stop the timer are. -/
  stops : ι → StopPhase
  /-- A call of `stop` has returned after the start. -/
  stopped : Bool
  /-- The calls of the handler since then. -/
  calls : ℕ

/-- The steps of the threads. -/
inductive TimerStructEvent (ι : Type*) where
  /-- `start` with or without a handler. -/
  | start (task : Bool)
  /-- The test of the flag in `stop`. -/
  | stopTest (caller : ι)
  /-- The flag is set in `stop`. -/
  | stopSet (caller : ι)
  /-- The section of `stop` under the mutex. -/
  | stopBroadcast (caller : ι)
  /-- The thread clears the flag. -/
  | reset
  /-- The thread tests the flag. -/
  | test
  /-- The thread begins to wait. -/
  | wait
  /-- The wait ends without a signal. -/
  | wakeup
  /-- The wait ends with the period. -/
  | timeout
  /-- The thread goes on after a signal. -/
  | signalled
  /-- The thread calls the handler. -/
  | handle

/-- The broadcast ends the wait of the thread. -/
def signal : RunPhase → RunPhase
  | .waiting => .signalled
  | phase => phase

namespace TimerStruct

variable {ι : Type*}

/-- A timer that has not been started. -/
def init : TimerStruct ι where
  stopLoop := false
  timeoutHandler := false
  thread := .notStarted
  stops := fun _ => .idle
  stopped := false
  calls := 0

variable [DecidableEq ι]

/-- A call of `stop` returns. -/
def stopReturn (s : TimerStruct ι) (caller : ι) : TimerStruct ι :=
  { s with
    stops := Function.update s.stops caller .idle
    stopped := s.stopped || decide (s.thread ≠ .notStarted) }

/-- One step of one of the threads. -/
def step (s : TimerStruct ι) : TimerStructEvent ι → Option (TimerStruct ι)
  | .start task =>
    if s.thread = .notStarted then some { s with thread := .spawned, timeoutHandler := task } else none
  | .stopTest caller =>
    if s.stops caller = .idle then
      some (if s.stopLoop then s.stopReturn caller
        else { s with stops := Function.update s.stops caller .tested })
    else none
  | .stopSet caller =>
    if s.stops caller = .tested then
      some { s with stopLoop := true, stops := Function.update s.stops caller .stored }
    else none
  | .stopBroadcast caller =>
    if s.stops caller = .stored then
      some ({ s with thread := signal s.thread }.stopReturn caller)
    else none
  | .reset => if s.thread = .spawned then some { s with stopLoop := false, thread := .testing } else none
  | .test =>
    if s.thread = .testing then some { s with thread := if s.stopLoop then .finished else .entered } else none
  | .wait => if s.thread = .entered then some { s with thread := .waiting } else none
  | .wakeup => if s.thread = .waiting then some { s with thread := .signalled } else none
  | .timeout => if s.thread = .waiting then some { s with thread := .timedOut } else none
  | .signalled => if s.thread = .signalled then some { s with thread := .testing } else none
  | .handle =>
    if s.thread = .timedOut then
      some { s with
        thread := .testing
        calls := if s.stopped && s.timeoutHandler then s.calls + 1 else s.calls }
    else none

/-- A stop that has returned is kept: the handler has been called once more at most, and a test of the flag
makes the thread leave its loop. -/
def StopKept (s : TimerStruct ι) : Prop :=
  s.stopped = true → s.calls ≤ 1 ∧ ∀ s', s.step .test = some s' → s'.thread = .finished

/-- The thread clears the flag before a call of `stop` that returns after the start has set it or found
it set. -/
def ResetInTime (s : TimerStruct ι) (e : TimerStructEvent ι) : Prop :=
  e = .reset → s.stopped = false ∧ ∀ caller, s.stops caller ≠ .stored

/-- The handler will be called before the flag is tested the next time, unless a signal comes. -/
def callsAhead : RunPhase → ℕ
  | .entered | .waiting | .timedOut => 1
  | _ => 0

/-- What every step keeps, if the flag is cleared in time. -/
structure Keeps (s : TimerStruct ι) : Prop where
  flag_stopped : s.stopped = true → s.stopLoop = true
  flag_stored : ∀ caller, s.stops caller = .stored → s.stopLoop = true
  calls : s.calls + callsAhead s.thread ≤ 1
  calls_zero : s.stopped = false → s.calls = 0

omit [DecidableEq ι] in
/-- A timer that has not been started keeps every stop. -/
theorem keeps_init : Keeps (init : TimerStruct ι) where
  flag_stopped := fun h => nomatch h
  flag_stored := fun _ h => nomatch h
  calls := Nat.zero_le _
  calls_zero := fun _ => rfl

/-- A broadcast does not bring the handler any nearer. -/
theorem callsAhead_signal (phase : RunPhase) : callsAhead (signal phase) ≤ callsAhead phase := by
  cases phase <;> decide

variable {s s' : TimerStruct ι}

/-- A call of `stop` that returns with the flag set is kept. -/
theorem keeps_stopReturn (h : Keeps s) (hflag : s.stopLoop = true) (caller : ι) :
    Keeps (s.stopReturn caller) where
  flag_stopped := fun _ => hflag
  flag_stored := fun _ _ => hflag
  calls := h.calls
  calls_zero := fun hstopped => h.calls_zero (Bool.or_eq_false_iff.mp hstopped).1

omit [DecidableEq ι] in
/-- The thread goes on to a phase that is no nearer to the handler. -/
theorem keeps_thread (phase : RunPhase) (h : Keeps s) (hphase : callsAhead phase ≤ callsAhead s.thread) :
    Keeps { s with thread := phase } where
  flag_stopped := h.flag_stopped
  flag_stored := h.flag_stored
  calls := Nat.le_trans (Nat.add_le_add_left hphase _) h.calls
  calls_zero := h.calls_zero

/-- A thread that has tested the flag or set it. -/
theorem keeps_stops (h : Keeps s) {flag : Bool} (caller : ι) {phase : StopPhase}
    (hflag : s.stopLoop = true → flag = true) (hphase : phase = .stored → flag = true) :
    Keeps { s with stopLoop := flag, stops := Function.update s.stops caller phase } where
  flag_stopped := fun hstopped => hflag (h.flag_stopped hstopped)
  flag_stored := fun other hother => by
    rcases eq_or_ne other caller with rfl | hne
    · exact hphase (by simpa using hother)
    · exact hflag (h.flag_stored other (by simpa [hne] using hother))
  calls := h.calls
  calls_zero := h.calls_zero

omit [DecidableEq ι] in
/-- The thread clears the flag before any stop that counts. -/
theorem keeps_reset (h : Keeps s) (hthread : s.thread = .spawned) (hstopped : s.stopped = false)
    (hstored : ∀ caller, s.stops caller ≠ .stored) :
    Keeps { s with stopLoop := false, thread := .testing } where
  flag_stopped := fun htrue => absurd (hstopped.symm.trans htrue) Bool.false_ne_true
  flag_stored := fun caller hcaller => absurd hcaller (hstored caller)
  calls := by
    have hcalls := h.calls
    rwa [hthread] at hcalls
  calls_zero := h.calls_zero

omit [DecidableEq ι] in
/-- The thread leaves the loop when it finds the flag set, and else goes on to wait. -/
theorem keeps_test (h : Keeps s) : Keeps { s with thread := if s.stopLoop then .finished else .entered } := by
  by_cases hflag : s.stopLoop = true
  · rw [if_pos hflag]
    exact keeps_thread _ h (Nat.zero_le _)
  · -- no stop has returned yet, so the handler may be called once more
    have hrunning : s.stopped = false := Bool.not_eq_true _ ▸ mt h.flag_stopped hflag
    have hfirst := congrArg (· + 1) (h.calls_zero hrunning)
    rw [if_neg hflag]
    exact ⟨h.flag_stopped, h.flag_stored, Nat.le_of_eq hfirst, h.calls_zero⟩

omit [DecidableEq ι] in
/-- After a period the handler is called, which counts when a stop has returned. -/
theorem keeps_handle (h : Keeps s) (hthread : s.thread = .timedOut) :
    Keeps { s with
      thread := .testing
      calls := if s.stopped && s.timeoutHandler then s.calls + 1 else s.calls } where
  flag_stopped := h.flag_stopped
  flag_stored := h.flag_stored
  calls := by
    have hcalls : s.calls + 1 ≤ 1 := by
      have hahead := h.calls
      rwa [hthread] at hahead
    dsimp only
    split
    · exact hcalls
    · exact Nat.le_trans (Nat.le_succ _) hcalls
  calls_zero := fun hstopped => by
    have hrunning : s.stopped = false := hstopped
    simp only [hrunning, Bool.false_and, Bool.false_eq_true, if_false, h.calls_zero hrunning]

/-- Every step of a thread keeps what it finds, if the flag is cleared in time. -/
theorem keeps_step (e : TimerStructEvent ι) (h : Keeps s) (hreset : s.ResetInTime e)
    (hstep : s.step e = some s') : Keeps s' := by
  cases e with
  | start task =>
    obtain ⟨hthread, rfl⟩ := Transition.enabled_of_ite hstep
    have hstart := keeps_thread .spawned h (by rw [hthread]; decide)
    exact ⟨hstart.flag_stopped, hstart.flag_stored, hstart.calls, hstart.calls_zero⟩
  | stopTest caller =>
    obtain ⟨-, rfl⟩ := Transition.enabled_of_ite hstep
    split
    case isTrue hflag => exact keeps_stopReturn h hflag caller
    case isFalse => exact keeps_stops h caller id (fun hstored => nomatch hstored)
  | stopSet caller =>
    obtain ⟨-, rfl⟩ := Transition.enabled_of_ite hstep
    exact keeps_stops h caller (fun _ => rfl) (fun _ => rfl)
  | stopBroadcast caller =>
    obtain ⟨hstored, rfl⟩ := Transition.enabled_of_ite hstep
    have hsignal := keeps_thread _ h (callsAhead_signal s.thread)
    exact keeps_stopReturn hsignal (h.flag_stored caller hstored) caller
  | reset =>
    obtain ⟨hthread, rfl⟩ := Transition.enabled_of_ite hstep
    obtain ⟨hstopped, hstored⟩ := hreset rfl
    exact keeps_reset h hthread hstopped hstored
  | test =>
    obtain ⟨-, rfl⟩ := Transition.enabled_of_ite hstep
    exact keeps_test h
  | wait =>
    obtain ⟨hthread, rfl⟩ := Transition.enabled_of_ite hstep
    exact keeps_thread _ h (by rw [hthread]; decide)
  | wakeup =>
    obtain ⟨-, rfl⟩ := Transition.enabled_of_ite hstep
    exact keeps_thread _ h (Nat.zero_le _)
  | timeout =>
    obtain ⟨hthread, rfl⟩ := Transition.enabled_of_ite hstep
    exact keeps_thread _ h (by rw [hthread]; decide)
  | signalled =>
    obtain ⟨-, rfl⟩ := Transition.enabled_of_ite hstep
    exact keeps_thread _ h (Nat.zero_le _)
  | handle =>
    obtain ⟨hthread, rfl⟩ := Transition.enabled_of_ite hstep
    exact keeps_handle h hthread

/-- What the steps keep is what is asked of a stop. -/
theorem Keeps.stopKept (h : Keeps s) : StopKept s := by
  intro hstopped
  refine ⟨Nat.le_trans (Nat.le_add_right _ _) h.calls, fun s' hstep => ?_⟩
  obtain ⟨-, rfl⟩ := Transition.enabled_of_ite hstep
  exact if_pos (h.flag_stopped hstopped)

/-- In a run in which the thread clears the flag in time, no stop is lost. -/
theorem stopKept_of_run (events : List (TimerStructEvent ι)) (hrun : Transition.run step init events = some s)
    (hreset : Transition.Along step ResetInTime init events) : StopKept s :=
  (Transition.run_invariant_along ResetInTime Keeps (fun _ e _ h hcond hstep => keeps_step e h hcond hstep)
    hrun hreset keeps_init).stopKept

/-- A stop that comes while the thread waits for the first time. -/
theorem stopKept_of_run_waiting :
    ∃ s : TimerStruct Unit, Transition.run step init
        [.start true, .reset, .test, .wait, .stopTest (), .stopSet (), .stopBroadcast ()] = some s ∧
      StopKept s := by
  refine ⟨_, rfl, stopKept_of_run
    [.start true, .reset, .test, .wait, .stopTest (), .stopSet (), .stopBroadcast ()] rfl ?_⟩
  simp [Transition.Along, ResetInTime, step, init]

/-- When the thread clears the flag too late, the run can go on so that a stop that has returned is lost. -/
theorem exists_not_stopKept_of_late_reset (hlate : ¬ s.ResetInTime .reset) (hstep : s.step .reset = some s') :
    ∃ events t, Transition.run step s' events = some t ∧ ¬ StopKept t := by
  obtain ⟨hthread, rfl⟩ := Transition.enabled_of_ite hstep
  by_cases hstopped : s.stopped = true
  · refine ⟨[], _, rfl, fun h => ?_⟩
    exact nomatch (h hstopped).2 _ rfl
  · obtain ⟨caller, hstored⟩ : ∃ caller, s.stops caller = .stored := by
      by_contra hnone
      exact hlate fun _ => ⟨Bool.not_eq_true _ ▸ hstopped, fun caller hcaller => hnone ⟨caller, hcaller⟩⟩
    refine ⟨[.stopBroadcast caller], _, Transition.run_singleton (if_pos hstored), fun h => ?_⟩
    exact nomatch (h (Bool.or_true _)).2 _ rfl

/-- A stop that comes before the thread has begun: the handler is called once in every period from then on. -/
theorem exists_not_stopKept : ∃ s : TimerStruct Unit, Transition.run step init
    [.start true, .stopTest (), .stopSet (), .stopBroadcast (), .reset, .test, .wait, .timeout, .handle,
      .test, .wait, .timeout, .handle] = some s ∧ ¬ StopKept s :=
  ⟨_, rfl, fun h => absurd (h rfl).1 (by decide)⟩

end TimerStruct

end RemoteManage.Common

import RemoteManage.Foundation.Mealy
import Mathlib.Data.Nat.Basic

/-!
# The timer and its actions

`timer_manage::run` is called at every tick of the timer. It goes through the registered actions, erases
those that have been called as often as they were to be, and lets the others count the tick. An
action counts its ticks and its remaining calls by itself, so the actions before it, it, and those behind it
go through a tick as if they were alone.

`TIME_ACTION_ALWAYS` is written with one digit too few. It is a number of calls like any other below
`2^28`, and the countdown from a larger one stops there.
-/

namespace RemoteManage.Common

open RemoteManage.Foundation

/-- `TIME_ACTION_ALWAYS`. -/
def timeActionAlways : UInt32 := 0xFFFFFFF

/-- `timer_action`, with handlers in `F`. -/
structure TimerAction (F : Type*) where
  timeHandler : F
  tickCount : UInt32
  tickCompare : UInt32
  eventId : UInt32
  actionTimes : UInt32
  deriving DecidableEq

/-- A handler is called with the id of an event. -/
structure HandlerCall (F : Type*) where
  handler : F
  id : Int32
  deriving DecidableEq

variable {F : Type*}

namespace TimerAction

/-- The constructor. -/
def new (id : Int32) (time count : UInt32) (func : F) : TimerAction F where
  timeHandler := func
  tickCount := 0
  tickCompare := time
  eventId := id.toUInt32
  actionTimes := count

/-- `is_match`. -/
def isMatch (work : TimerAction F) : TimerAction F × Bool :=
  let work := { work with tickCount := work.tickCount + 1 }
  if work.tickCount ≥ work.tickCompare then ({ work with tickCount := 0 }, true) else (work, false)

/-- `action`, with the call it makes. -/
def action (work : TimerAction F) : TimerAction F × List (HandlerCall F) :=
  if work.actionTimes > 0 then
    let (work, matched) := work.isMatch
    if matched then
      let work :=
        if work.actionTimes ≠ timeActionAlways then { work with actionTimes := work.actionTimes - 1 }
        else work
      (work, [⟨work.timeHandler, work.eventId.toInt32⟩])
    else (work, [])
  else (work, [])

end TimerAction

/-- The loop of `timer_manage::run` over the actions, with the calls made. -/
def runActions : List (TimerAction F) → List (TimerAction F) × List (HandlerCall F)
  | [] => ([], [])
  | iter :: rest =>
    if iter.actionTimes = 0 then runActions rest
    else
      let (iter, calls) := iter.action
      let (rest, more) := runActions rest
      (iter :: rest, calls ++ more)

/-- `timer_manage`. -/
structure TimerManage (F : Type*) where
  timeActionVec : List (TimerAction F)
  ticks : UInt32
  peroid : UInt32

namespace TimerManage

/-- The object once `init` has been called for the period. -/
def init (timeInterval : UInt32) : TimerManage F := ⟨[], 0, timeInterval⟩

/-- `run`. -/
def run (s : TimerManage F) : TimerManage F × List (HandlerCall F) :=
  let (timeActionVec, calls) := runActions s.timeActionVec
  ({ s with ticks := s.ticks + s.peroid, timeActionVec }, calls)

/-- `register_action`. -/
def registerAction (s : TimerManage F) (id time count : UInt32) (func : F) : TimerManage F :=
  { s with timeActionVec := s.timeActionVec ++ [.new id.toInt32 time count func] }

end TimerManage

/-- What happens to the timer: a tick, or one more registration. -/
inductive TimerEvent (F : Type*) where
  | tick
  | registerAction (id time count : UInt32) (func : F)

/-- The event is a tick. -/
def TimerEvent.isTick : TimerEvent F → Bool
  | tick => true
  | registerAction .. => false

/-- One event of the timer, with the calls it makes. -/
def timerStep (s : TimerManage F) : TimerEvent F → TimerManage F × List (HandlerCall F)
  | .tick => s.run
  | .registerAction id time count func => (s.registerAction id time count func, [])

/-- `TIME_INTERVAL`, in milliseconds. -/
def timeInterval : UInt32 := 100

/-- `xGetCurrentTicks`, in milliseconds. -/
def xGetCurrentTicks (s : TimerManage F) : UInt32 := s.ticks

/-- `xGetCurrentTimes`, in seconds. -/
def xGetCurrentTimes (s : TimerManage F) : UInt32 := xGetCurrentTicks s / 1000

/-- Every tick adds the period to the count of milliseconds, and nothing else changes either. -/
theorem ticks_after (s : TimerManage F) (events : List (TimerEvent F)) :
    (Mealy.after timerStep s events).ticks =
      s.ticks + .ofNat (events.countP TimerEvent.isTick) * s.peroid := by
  induction events generalizing s with
  | nil => simp
  | cons event rest ih =>
    cases event with
    | tick =>
      rw [Mealy.after, ih, List.countP_cons_of_pos rfl, UInt32.ofNat_add, UInt32.add_mul,
        UInt32.add_comm (_ * _), ← UInt32.add_assoc]
      change s.ticks + s.peroid + _ = s.ticks + 1 * s.peroid + _
      rw [UInt32.one_mul]
      rfl
    | registerAction id time count func => exact ih _

/-- The period of an action in ticks. -/
def actionPeriod (time : UInt32) : ℕ := max time.toNat 1

/-- The action has calls left, or its last one was at the `n`-th tick behind its registration. -/
def Kept (time count : UInt32) (n : ℕ) : Prop :=
  count = timeActionAlways ∨ n ≤ actionPeriod time * count.toNat

/-- The action is to be called at the `n`-th tick behind its registration. -/
def Due (time count : UInt32) (n : ℕ) : Prop := actionPeriod time ∣ n ∧ Kept time count n

instance (time count : UInt32) (n : ℕ) : Decidable (Kept time count n) :=
  inferInstanceAs (Decidable (_ ∨ _))

instance (time count : UInt32) (n : ℕ) : Decidable (Due time count n) :=
  inferInstanceAs (Decidable (_ ∧ _))

/-- The state behind some events and a registration before them. The actions registered earlier saw only
the ticks of these events, and those registered later are the only ones of a timer without any at first. -/
structure FiresAsRegistered (time count : UInt32) : Prop where
  /-- The action is one of the vector until the tick after its last call, between the others. -/
  kept : ∀ (F : Type) (s : TimerManage F) (id : UInt32) (func : F) (events : List (TimerEvent F)),
    ∃ work : TimerAction F, work.timeHandler = func ∧ work.eventId = id ∧
      (Mealy.after timerStep (s.registerAction id time count func) events).timeActionVec =
        (Mealy.after timerStep s (events.filter TimerEvent.isTick)).timeActionVec ++
          (if Kept time count (events.countP TimerEvent.isTick) then [work] else []) ++
          (Mealy.after timerStep { s with timeActionVec := [] } events).timeActionVec
  /-- At the next tick its handler is called exactly when it is due, between the calls of the others. -/
  called : ∀ (F : Type) (s : TimerManage F) (id : UInt32) (func : F) (events : List (TimerEvent F)),
    (Mealy.after timerStep (s.registerAction id time count func) events).run.2 =
      (Mealy.after timerStep s (events.filter TimerEvent.isTick)).run.2 ++
        (if Due time count (events.countP TimerEvent.isTick + 1) then [⟨func, id.toInt32⟩] else []) ++
        (Mealy.after timerStep { s with timeActionVec := [] } events).run.2

/-- Two groups of actions go through a tick one after the other. -/
theorem runActions_append (before behind : List (TimerAction F)) :
    runActions (before ++ behind) =
      ((runActions before).1 ++ (runActions behind).1, (runActions before).2 ++ (runActions behind).2) := by
  induction before with
  | nil => rfl
  | cons iter rest ih =>
    simp only [List.cons_append, runActions]
    split
    · exact ih
    · rw [ih, List.cons_append, List.append_assoc]

section Countdown

/-- The calls that are left after `k` calls. -/
def remainingTimes (count : UInt32) (k : ℕ) : ℕ :=
  if timeActionAlways ≤ count then max (count.toNat - k) timeActionAlways.toNat else count.toNat - k

/-- A count from `TIME_ACTION_ALWAYS` on never falls below it. -/
theorem remainingTimes_of_le {count : UInt32} (h : timeActionAlways ≤ count) (k : ℕ) :
    remainingTimes count k = max (count.toNat - k) timeActionAlways.toNat := if_pos h

/-- A smaller count falls by one with each call. -/
theorem remainingTimes_of_lt {count : UInt32} (h : ¬ timeActionAlways ≤ count) (k : ℕ) :
    remainingTimes count k = count.toNat - k := if_neg h

/-- The calls left, counted as the action counts them. -/
theorem toNat_remainingTimes (count : UInt32) (k : ℕ) :
    (UInt32.ofNat (remainingTimes count k)).toNat = remainingTimes count k := by
  have hle : remainingTimes count k ≤ count.toNat := by
    by_cases h : timeActionAlways ≤ count
    · rw [remainingTimes_of_le h]
      exact Nat.max_le.mpr ⟨Nat.sub_le _ _, UInt32.le_iff_toNat_le.mp h⟩
    · rw [remainingTimes_of_lt h]
      exact Nat.sub_le _ _
  rw [UInt32.toNat_ofNat']
  exact Nat.mod_eq_of_lt (Nat.lt_of_le_of_lt hle count.toNat_lt)

/-- One more call leaves one less, unless the count stands at `TIME_ACTION_ALWAYS`. -/
theorem remainingTimes_succ (count : UInt32) (k : ℕ) :
    remainingTimes count (k + 1) =
      if remainingTimes count k = timeActionAlways.toNat then timeActionAlways.toNat
      else remainingTimes count k - 1 := by
  have halways : timeActionAlways.toNat = 0xFFFFFFF := rfl
  by_cases h : timeActionAlways ≤ count
  · rw [remainingTimes_of_le h, remainingTimes_of_le h, halways]
    split <;> omega
  · have hlt : count.toNat < 0xFFFFFFF := UInt32.lt_iff_toNat_lt.mp (UInt32.not_le.mp h)
    rw [remainingTimes_of_lt h, remainingTimes_of_lt h, halways, if_neg (by omega)]
    omega

/-- A call leaves as many calls as the action then counts. -/
theorem ofNat_remainingTimes_succ {count : UInt32} {k : ℕ} (h : remainingTimes count k ≠ 0) :
    UInt32.ofNat (remainingTimes count (k + 1)) =
      if UInt32.ofNat (remainingTimes count k) ≠ timeActionAlways then .ofNat (remainingTimes count k) - 1
      else .ofNat (remainingTimes count k) := by
  have htimes := toNat_remainingTimes count k
  have hone : (1 : UInt32).toNat = 1 := rfl
  rw [remainingTimes_succ]
  by_cases halways : UInt32.ofNat (remainingTimes count k) = timeActionAlways
  · rw [halways] at htimes
    rw [if_pos htimes.symm, if_neg (not_not_intro halways), halways]
    rfl
  · have hne : remainingTimes count k ≠ timeActionAlways.toNat := fun heq =>
      halways (UInt32.toNat.inj (htimes.trans heq))
    rw [if_neg hne, if_pos halways]
    apply UInt32.toNat.inj
    rw [UInt32.toNat_sub_of_le _ _ (UInt32.le_iff_toNat_le.mpr (by omega)), htimes, hone, UInt32.toNat_ofNat']
    have := (UInt32.ofNat (remainingTimes count k)).toNat_lt
    exact Nat.mod_eq_of_lt (by omega)

/-- No calls are left exactly when a count below `TIME_ACTION_ALWAYS` has been called. -/
theorem remainingTimes_eq_zero_iff (count : UInt32) (k : ℕ) :
    remainingTimes count k = 0 ↔ ¬ timeActionAlways ≤ count ∧ count.toNat ≤ k := by
  have halways : timeActionAlways.toNat = 0xFFFFFFF := rfl
  by_cases h : timeActionAlways ≤ count
  · rw [remainingTimes_of_le h, iff_false_right (fun hboth => hboth.1 h), halways]
    omega
  · rw [remainingTimes_of_lt h, and_iff_right h, Nat.sub_eq_zero_iff_le]

end Countdown

section Registered

variable (time count id : UInt32) (func : F)

/-- The action stays in the vector for `n` ticks at least. -/
def Stays (n : ℕ) : Prop := timeActionAlways ≤ count ∨ n ≤ actionPeriod time * count.toNat

instance (n : ℕ) : Decidable (Stays time count n) := inferInstanceAs (Decidable (_ ∨ _))

/-- The action after `n` ticks. -/
def workAfter (n : ℕ) : TimerAction F where
  timeHandler := func
  tickCount := .ofNat (n % actionPeriod time)
  tickCompare := time
  eventId := id
  actionTimes := .ofNat (remainingTimes count (n / actionPeriod time))

/-- What is left of the action after `n` ticks. -/
def registered (n : ℕ) : List (TimerAction F) :=
  if Stays time count n then [workAfter time count id func n] else []

/-- The calls of the action at the `n`-th tick. -/
def callsAt (n : ℕ) : List (HandlerCall F) :=
  if actionPeriod time ∣ n ∧ Stays time count n then [⟨func, id.toInt32⟩] else []

theorem actionPeriod_pos : 0 < actionPeriod time := Nat.lt_of_lt_of_le Nat.one_pos (Nat.le_max_right _ _)

/-- One tick behind `n` is the last of a period exactly when `n` is one short of it. -/
theorem actionPeriod_dvd_succ_iff (n : ℕ) :
    actionPeriod time ∣ n + 1 ↔ n % actionPeriod time + 1 = actionPeriod time := by
  have hmod := Nat.mod_lt n (actionPeriod_pos time)
  rw [Nat.dvd_iff_mod_eq_zero, ← Nat.mod_add_mod]
  rcases Nat.lt_or_eq_of_le (Nat.succ_le_of_lt hmod) with hlt | heq
  · rw [Nat.mod_eq_of_lt hlt]
    omega
  · have hself : n % actionPeriod time + 1 = actionPeriod time := heq
    rw [hself, Nat.mod_self]
    exact iff_of_true rfl rfl

/-- An action counts its ticks up to its period, which is one tick for the period 0. -/
theorem isMatch_workAfter (n : ℕ) :
    (workAfter time count id func n).isMatch =
      ({ workAfter time count id func n with tickCount := .ofNat ((n + 1) % actionPeriod time) },
        decide (actionPeriod time ∣ n + 1)) := by
  have hmod := Nat.mod_lt n (actionPeriod_pos time)
  have htime : actionPeriod time = max time.toNat 1 := rfl
  have hbound := time.toNat_lt
  have hcount : UInt32.ofNat (n % actionPeriod time) + 1 = UInt32.ofNat (n % actionPeriod time + 1) :=
    (UInt32.ofNat_add _ _).symm
  have htoNat : (UInt32.ofNat (n % actionPeriod time + 1)).toNat = n % actionPeriod time + 1 := by
    rw [UInt32.toNat_ofNat']
    exact Nat.mod_eq_of_lt (by omega)
  have hmatch : time ≤ UInt32.ofNat (n % actionPeriod time + 1) ↔ actionPeriod time ∣ n + 1 := by
    rw [UInt32.le_iff_toNat_le, htoNat, actionPeriod_dvd_succ_iff]
    omega
  simp only [TimerAction.isMatch, workAfter, hcount, ge_iff_le, hmatch]
  by_cases hdvd : actionPeriod time ∣ n + 1
  · rw [if_pos hdvd, Nat.mod_eq_zero_of_dvd hdvd, decide_eq_true hdvd]
    rfl
  · have hne := mt (actionPeriod_dvd_succ_iff time n).mpr hdvd
    have hsucc : (n + 1) % actionPeriod time = n % actionPeriod time + 1 := by
      rw [← Nat.mod_add_mod]
      exact Nat.mod_eq_of_lt (by omega)
    rw [if_neg hdvd, decide_eq_false hdvd, hsucc]

/-- An action with calls left goes through one more tick and is called when a period is over. -/
theorem action_workAfter {n : ℕ} (h : remainingTimes count (n / actionPeriod time) ≠ 0) :
    (workAfter time count id func n).action =
      (workAfter time count id func (n + 1),
        if actionPeriod time ∣ n + 1 then [⟨func, id.toInt32⟩] else []) := by
  have htimes := toNat_remainingTimes count (n / actionPeriod time)
  have hleft : UInt32.ofNat (remainingTimes count (n / actionPeriod time)) > 0 := by
    rw [gt_iff_lt, UInt32.lt_iff_toNat_lt, htimes]
    exact Nat.pos_of_ne_zero h
  have hdiv : (n + 1) / actionPeriod time =
      n / actionPeriod time + if actionPeriod time ∣ n + 1 then 1 else 0 := Nat.succ_div
  rw [TimerAction.action, isMatch_workAfter]
  simp only [workAfter, hleft, if_true, decide_eq_true_eq]
  by_cases hdvd : actionPeriod time ∣ n + 1
  · rw [if_pos hdvd] at hdiv
    have hcall := ofNat_remainingTimes_succ h
    simp only [hdvd, if_true, hdiv, hcall, Nat.mod_eq_zero_of_dvd hdvd]
    split <;> rfl
  · rw [if_neg hdvd] at hdiv
    rw [if_neg hdvd, if_neg hdvd, hdiv]
    rfl

/-- What is left of the action goes through one more tick: it is called when it is due, and erased at the
tick after its last call. -/
theorem runActions_registered (n : ℕ) :
    runActions (registered time count id func n) =
      (registered time count id func (n + 1), callsAt time count id func (n + 1)) := by
  have hpos := actionPeriod_pos time
  have htimes := toNat_remainingTimes count (n / actionPeriod time)
  have hdone := remainingTimes_eq_zero_iff count (n / actionPeriod time)
  rw [Nat.le_div_iff_mul_le hpos, Nat.mul_comm] at hdone
  unfold registered callsAt
  by_cases hleft : remainingTimes count (n / actionPeriod time) = 0
  · -- no calls are left, so the action goes, if it has not gone before
    obtain ⟨hlt, hcalled⟩ := hdone.mp hleft
    have hgone : ¬ Stays time count (n + 1) := by
      rintro (halways | hle)
      · exact hlt halways
      · omega
    have hzero : (workAfter time count id func n).actionTimes = 0 := by
      rw [workAfter, hleft]
      rfl
    rw [if_neg hgone, if_neg (c := actionPeriod time ∣ n + 1 ∧ _) (fun hboth => hgone hboth.2)]
    split
    · rw [runActions, if_pos hzero]
      rfl
    · rfl
  · -- a call is left, so the next tick is not the last one the action stays for
    have hstays : Stays time count (n + 1) := by
      by_contra hgone
      obtain ⟨hlt, hmore⟩ := not_or.mp hgone
      exact hleft (hdone.mpr ⟨hlt, by omega⟩)
    have hstayed : Stays time count n := hstays.imp_right (Nat.le_of_succ_le)
    have hne : (workAfter time count id func n).actionTimes ≠ 0 := fun hzero => by
      rw [show UInt32.ofNat (remainingTimes count (n / actionPeriod time)) = 0 from hzero] at htimes
      exact hleft htimes.symm
    rw [if_pos hstayed, if_pos hstays, runActions, if_neg hne, action_workAfter time count id func hleft]
    simp only [runActions, List.append_nil, hstays, and_true]

end Registered

section Others

variable {time count id : UInt32} {func : F}

/-- The actions of a timer are those registered before the action, what is left of it, and those
registered after it. -/
def Between (time count id : UInt32) (func : F) (n : ℕ) (whole before behind : TimerManage F) : Prop :=
  whole.timeActionVec = before.timeActionVec ++ registered time count id func n ++ behind.timeActionVec

variable {n : ℕ} {whole before behind : TimerManage F}

/-- The actions go through a tick apart from each other. -/
theorem runActions_of_between (h : Between time count id func n whole before behind) :
    Between time count id func (n + 1) whole.run.1 before.run.1 behind.run.1 ∧
      whole.run.2 = before.run.2 ++ callsAt time count id func (n + 1) ++ behind.run.2 := by
  have hrun := congrArg runActions h
  rw [runActions_append, runActions_append, runActions_registered] at hrun
  exact ⟨congrArg Prod.fst hrun, congrArg Prod.snd hrun⟩

/-- Behind some events the earlier actions have seen the ticks of them, and the later actions all of them. -/
theorem between_after (events : List (TimerEvent F))
    (h : Between time count id func n whole before behind) :
    Between time count id func (n + events.countP TimerEvent.isTick) (Mealy.after timerStep whole events)
      (Mealy.after timerStep before (events.filter TimerEvent.isTick))
      (Mealy.after timerStep behind events) := by
  induction events generalizing n whole before behind with
  | nil => exact h
  | cons event rest ih =>
    cases event with
    | tick =>
      have htick := ih (runActions_of_between h).1
      rw [List.countP_cons_of_pos rfl, List.filter_cons_of_pos rfl, Nat.add_comm _ 1, ← Nat.add_assoc]
      exact htick
    | registerAction id' time' count' func' =>
      refine ih (?_ : Between time count id func n _ before _)
      simp only [Between, timerStep, TimerManage.registerAction, ← List.append_assoc]
      exact congrArg (· ++ _) h

/-- An action that has just been registered stands behind those registered before it. -/
theorem between_registerAction (s : TimerManage F) :
    Between time count id func 0 (s.registerAction id time count func) s { s with timeActionVec := [] } := by
  have hstays : Stays time count 0 := .inr (Nat.zero_le _)
  have htimes : remainingTimes count (0 / actionPeriod time) = count.toNat := by
    have hle : timeActionAlways ≤ count → timeActionAlways.toNat ≤ count.toNat := UInt32.le_iff_toNat_le.mp
    rw [Nat.zero_div, remainingTimes, Nat.sub_zero]
    split
    case isTrue h => exact Nat.max_eq_left (hle h)
    case isFalse => rfl
  have hnew : workAfter time count id func 0 = .new id.toInt32 time count func := by
    rw [workAfter, htimes, Nat.zero_mod, UInt32.ofNat_toNat, TimerAction.new, UInt32.toUInt32_toInt32]
    rfl
  rw [Between, registered, if_pos hstays, List.append_nil, hnew]
  rfl

end Others

/-- An action that is to be called no more often than `TIME_ACTION_ALWAYS` stays until its last call. -/
theorem stays_iff_kept {count : UInt32} (h : count ≤ timeActionAlways) (time : UInt32) (n : ℕ) :
    Stays time count n ↔ Kept time count n :=
  or_congr_left ⟨fun hle => UInt32.le_antisymm h hle, fun heq => heq ▸ UInt32.le_refl _⟩

/-- The countdown of a count above `TIME_ACTION_ALWAYS` stops at that value, and the action never goes. -/
theorem le_of_firesAsRegistered {time count : UInt32} (h : FiresAsRegistered time count) :
    count ≤ timeActionAlways := by
  by_contra hmore
  have halways : timeActionAlways < count := UInt32.not_le.mp hmore
  let n := actionPeriod time * count.toNat + 1
  obtain ⟨work, -, -, hvec⟩ := h.kept Unit ⟨[], 0, 0⟩ 0 () (.replicate n .tick)
  have hbetween : Between time count 0 () _ _ _ _ :=
    between_after (.replicate n .tick) (between_registerAction ⟨[], 0, 0⟩)
  have hticks : (List.replicate n (.tick : TimerEvent Unit)).countP TimerEvent.isTick = n :=
    List.countP_replicate.trans (if_pos rfl)
  have hkept : ¬ Kept time count n := by
    rintro (heq | hle)
    · exact absurd (heq ▸ halways) (UInt32.lt_irrefl _)
    · exact absurd hle (Nat.not_succ_le_self _)
  have hstays : Stays time count (0 + n) := .inl (UInt32.le_of_lt halways)
  rw [hticks, if_neg hkept] at hvec
  rw [Between, hticks, registered, if_pos hstays] at hbetween
  have hlength := congrArg List.length (hbetween.symm.trans hvec)
  simp only [List.length_append, List.length_cons, List.length_nil] at hlength
  omega

/-- An action is called and erased as it was registered exactly when it is to be called `TIME_ACTION_ALWAYS`
times at most. -/
theorem firesAsRegistered_iff (time count : UInt32) :
    FiresAsRegistered time count ↔ count ≤ timeActionAlways := by
  refine ⟨le_of_firesAsRegistered, fun h => ?_⟩
  constructor
  case kept =>
    intro F s id func events
    have hbetween : Between time count id func _ _ _ _ := between_after events (between_registerAction s)
    refine ⟨workAfter time count id func (events.countP TimerEvent.isTick), rfl, rfl, ?_⟩
    simp only [Between, registered, Nat.zero_add, stays_iff_kept h] at hbetween
    exact hbetween
  case called =>
    intro F s id func events
    have hbetween : Between time count id func _ _ _ _ := between_after events (between_registerAction s)
    have hcalls := (runActions_of_between hbetween).2
    simp only [callsAt, Nat.zero_add, stays_iff_kept h] at hcalls
    exact hcalls

/-- An action that is to be called `2^28` times is never done. -/
theorem not_firesAsRegistered : ¬ FiresAsRegistered 1 0x10000000 := fun h =>
  absurd (le_of_firesAsRegistered h) (by decide)

end RemoteManage.Common

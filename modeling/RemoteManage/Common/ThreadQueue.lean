import RemoteManage.Foundation.ThreadPhase
import RemoteManage.Foundation.Transition

/-!
# The queue between threads

`Thread_Queue` guards its queue with one mutex and its semaphore guards `wakeups_` with another one,
so the two change at different times. A thread moves by the sections in which it holds a lock: `send`
pushes and then signals; `receive` waits and, if the wait succeeded, pops. A run is any order of such
sections of any number of threads. `wait_for` tests `wakeups_` once more when its time is over, so a
timeout happens only where there is no wake-up. There is an object in the queue for each wake-up that
`wakeups_` counts, so an integer stands for the `int`.
-/

namespace RemoteManage.Common

open RemoteManage.Foundation

/-- Where a thread is between two sections that hold a lock. -/
inductive QueuePhase where
  /-- In no operation, or in `receive` before its wait ends. -/
  | idle
  /-- In `send`, with its object in the queue and the signal still to come. -/
  | pushed
  /-- In `receive`, after a wait that succeeded. -/
  | woken
  deriving DecidableEq

/-- A section in which a thread holds one of the two locks. -/
inductive QueueEvent (ι T : Type*) where
  /-- The push of `send`. -/
  | push (thread : ι) (Object : T)
  /-- `semaphore::signal`, the end of `send`. -/
  | signal (thread : ι)
  /-- `semaphore::wait` returns true. -/
  | waitSuccess (thread : ι)
  /-- `semaphore::wait` returns false, and with it `receive`. -/
  | waitTimeout (thread : ι)
  /-- The section of `receive` that looks at the queue. -/
  | pop (thread : ι)

/-- What a call of `receive` came to: the result of its wait, its own, and what it wrote to `Object`. -/
structure Received (T : Type*) where
  /-- What `semaphore_.wait` returned. -/
  waited : Bool
  /-- What `receive` returned. -/
  ret : Bool
  /-- What has been written to the argument, if anything. -/
  Object : Option T

/-- `Thread_Queue` with its semaphore, the threads that use it and what has been pushed, popped and returned
so far. -/
structure ThreadQueue (ι T : Type*) where
  /-- `queue_`, the oldest object first. -/
  queue : List T
  /-- `wakeups_` of the semaphore. -/
  wakeups : ℤ
  /-- Where each thread is. -/
  phase : ι → QueuePhase
  /-- The objects pushed, in order. -/
  pushed : List T
  /-- The objects popped, in order. -/
  popped : List T
  /-- The calls of `receive` that have returned, in order. -/
  received : List (Received T)

/-- `xMBPortEventGet` from its call of `receive`: what it returns and what it writes to `eEvent`. The local
`event` that it copies has a value only if `receive` wrote one. -/
def xMBPortEventGet {T : Type*} (call : Received T) : Bool × Option T :=
  if call.ret then (true, call.Object) else (false, none)

/-- An event is passed on exactly when `receive` wrote one. -/
theorem xMBPortEventGet_of_isSome {T : Type*} {call : Received T} (h : call.Object.isSome = call.ret) :
    xMBPortEventGet call = (call.ret, call.Object) := by
  rw [xMBPortEventGet]
  split
  · next hret => rw [hret]
  · next hret =>
    rw [Bool.not_eq_true] at hret
    rw [hret, Option.isSome_eq_false_iff, Option.isNone_iff_eq_none] at h
    rw [hret, h]

namespace ThreadQueue

variable {ι T : Type*}

/-- An empty queue that no thread uses. -/
def init : ThreadQueue ι T where
  queue := []
  wakeups := 0
  phase := fun _ => .idle
  pushed := []
  popped := []
  received := []

/-- The section of `receive` after a wait that succeeded. -/
def popSection (s : ThreadQueue ι T) : ThreadQueue ι T :=
  match s.queue with
  | [] => { s with received := s.received ++ [⟨true, false, none⟩] }
  | Object :: queue =>
    { s with
      queue := queue
      popped := s.popped ++ [Object]
      received := s.received ++ [⟨true, true, some Object⟩] }

section Accounting

variable [Fintype ι]

/-- The objects in the queue are those with a wake-up, those whose sender has yet to signal and those whose
receiver has yet to pop. -/
def Accounted (s : ThreadQueue ι T) : Prop :=
  (s.queue.length : ℤ) = s.wakeups + inPhase s.phase .pushed + inPhase s.phase .woken

/-- What every section keeps. -/
structure Delivers (s : ThreadQueue ι T) : Prop where
  accounted : s.Accounted
  wakeups : 0 ≤ s.wakeups
  order : s.popped ++ s.queue = s.pushed
  handed : s.received.filterMap Received.Object = s.popped
  returns : ∀ call ∈ s.received, call.ret = call.waited ∧ call.Object.isSome = call.ret

variable {s : ThreadQueue ι T}

/-- An empty queue has delivered everything. -/
theorem delivers_init : Delivers (init : ThreadQueue ι T) where
  accounted := by
    rw [Accounted, init, inPhase_const_of_ne (by decide), inPhase_const_of_ne (by decide)]
    rfl
  wakeups := le_rfl
  order := rfl
  handed := rfl
  returns := fun _ h => absurd h List.not_mem_nil

/-- A receiver whose wait succeeded finds an object. -/
theorem Delivers.queue_ne_nil (h : Delivers s) {thread : ι} (hwoken : s.phase thread = .woken) :
    s.queue ≠ [] := by
  have hpos := inPhase_pos hwoken
  have hsize := h.accounted
  have hwakeups := h.wakeups
  rw [Accounted] at hsize
  apply List.ne_nil_of_length_pos
  omega

/-- A wait that ended without a wake-up. -/
theorem Delivers.waitTimeout (h : Delivers s) :
    Delivers { s with received := s.received ++ [⟨false, false, none⟩] } where
  accounted := h.accounted
  wakeups := h.wakeups
  order := h.order
  handed := by
    rw [List.filterMap_append, h.handed]
    exact List.append_nil _
  returns := List.forall_mem_append.mpr ⟨h.returns, List.forall_mem_singleton.mpr ⟨rfl, rfl⟩⟩

end Accounting

variable [DecidableEq ι]

/-- The thread goes on to a phase. -/
def goto (s : ThreadQueue ι T) (thread : ι) (phase : QueuePhase) : ThreadQueue ι T :=
  { s with phase := Function.update s.phase thread phase }

/-- One section of one thread. -/
def step (s : ThreadQueue ι T) : QueueEvent ι T → Option (ThreadQueue ι T)
  | .push thread Object =>
    if s.phase thread = .idle then
      some ({ s with queue := s.queue ++ [Object], pushed := s.pushed ++ [Object] }.goto thread .pushed)
    else none
  | .signal thread =>
    if s.phase thread = .pushed then some ({ s with wakeups := s.wakeups + 1 }.goto thread .idle) else none
  | .waitSuccess thread =>
    if s.phase thread = .idle ∧ 0 < s.wakeups then
      some ({ s with wakeups := s.wakeups - 1 }.goto thread .woken)
    else none
  | .waitTimeout thread =>
    if s.phase thread = .idle ∧ ¬ 0 < s.wakeups then
      some { s with received := s.received ++ [⟨false, false, none⟩] }
    else none
  | .pop thread => if s.phase thread = .woken then some (s.popSection.goto thread .idle) else none

variable [Fintype ι] {s s' : ThreadQueue ι T} {thread : ι}

/-- The push of an idle thread. -/
theorem Delivers.push (h : Delivers s) (hidle : s.phase thread = .idle) (Object : T) :
    Delivers
      ({ s with queue := s.queue ++ [Object], pushed := s.pushed ++ [Object] }.goto thread .pushed) where
  accounted := by
    have hpushed := inPhase_update_to hidle (show QueuePhase.idle ≠ .pushed by decide)
    have hwoken := inPhase_update_of_ne hidle (show QueuePhase.idle ≠ .woken by decide)
      (show QueuePhase.pushed ≠ .woken by decide)
    have hsize := h.accounted
    rw [Accounted] at hsize
    dsimp only [Accounted, goto]
    rw [hpushed, hwoken, List.length_append, List.length_singleton]
    omega
  wakeups := h.wakeups
  order := by rw [goto, ← List.append_assoc, h.order]
  handed := h.handed
  returns := h.returns

/-- The signal of a thread that has pushed. -/
theorem Delivers.signal (h : Delivers s) (hphase : s.phase thread = .pushed) :
    Delivers ({ s with wakeups := s.wakeups + 1 }.goto thread .idle) where
  accounted := by
    have hpushed := inPhase_update_from hphase (show QueuePhase.idle ≠ .pushed by decide)
    have hwoken := inPhase_update_of_ne hphase (show QueuePhase.pushed ≠ .woken by decide)
      (show QueuePhase.idle ≠ .woken by decide)
    have hsize := h.accounted
    rw [Accounted] at hsize
    dsimp only [Accounted, goto]
    omega
  wakeups := by
    have hwakeups := h.wakeups
    dsimp only [goto]
    omega
  order := h.order
  handed := h.handed
  returns := h.returns

/-- The wait of an idle thread while there is a wake-up. -/
theorem Delivers.waitSuccess (h : Delivers s) (hidle : s.phase thread = .idle) (hpos : 0 < s.wakeups) :
    Delivers ({ s with wakeups := s.wakeups - 1 }.goto thread .woken) where
  accounted := by
    have hwoken := inPhase_update_to hidle (show QueuePhase.idle ≠ .woken by decide)
    have hpushed := inPhase_update_of_ne hidle (show QueuePhase.idle ≠ .pushed by decide)
      (show QueuePhase.woken ≠ .pushed by decide)
    have hsize := h.accounted
    rw [Accounted] at hsize
    dsimp only [Accounted, goto]
    omega
  wakeups := by
    dsimp only [goto]
    omega
  order := h.order
  handed := h.handed
  returns := h.returns

/-- The section of a receiver whose wait succeeded. -/
theorem Delivers.pop (h : Delivers s) (hphase : s.phase thread = .woken) :
    Delivers (s.popSection.goto thread .idle) := by
  have hwoken := inPhase_update_from hphase (show QueuePhase.idle ≠ .woken by decide)
  have hpushed := inPhase_update_of_ne hphase (show QueuePhase.woken ≠ .pushed by decide)
    (show QueuePhase.idle ≠ .pushed by decide)
  have hsize := h.accounted
  rw [Accounted] at hsize
  obtain ⟨Object, queue, hqueue⟩ := List.exists_cons_of_ne_nil (h.queue_ne_nil hphase)
  rw [popSection, hqueue]
  rw [hqueue, List.length_cons] at hsize
  constructor
  case accounted =>
    dsimp only [Accounted, goto]
    omega
  case wakeups => exact h.wakeups
  case order =>
    rw [goto, List.append_assoc, ← h.order, hqueue, List.singleton_append]
  case handed =>
    rw [goto, List.filterMap_append, h.handed]
    rfl
  case returns =>
    exact List.forall_mem_append.mpr ⟨h.returns, List.forall_mem_singleton.mpr ⟨rfl, rfl⟩⟩

/-- Every section keeps the accounts. -/
theorem Delivers.step (s : ThreadQueue ι T) (e : QueueEvent ι T) (s' : ThreadQueue ι T) (h : Delivers s)
    (hstep : s.step e = some s') : Delivers s' := by
  cases e with
  | push thread Object =>
    obtain ⟨hidle, rfl⟩ := Transition.enabled_of_ite hstep
    exact h.push hidle Object
  | signal thread =>
    obtain ⟨hphase, rfl⟩ := Transition.enabled_of_ite hstep
    exact h.signal hphase
  | waitSuccess thread =>
    obtain ⟨⟨hidle, hpos⟩, rfl⟩ := Transition.enabled_of_ite hstep
    exact h.waitSuccess hidle hpos
  | waitTimeout thread =>
    obtain ⟨-, rfl⟩ := Transition.enabled_of_ite hstep
    exact h.waitTimeout
  | pop thread =>
    obtain ⟨hphase, rfl⟩ := Transition.enabled_of_ite hstep
    exact h.pop hphase

/-- In every interleaving a receiver whose wait succeeded finds an object, so that `receive` returns what its
wait returned; what has been popped is a prefix of what has been pushed and has been handed to the
callers; and the queue holds an object for each wake-up and for each thread between its two sections. -/
theorem run_delivers {events : List (QueueEvent ι T)}
    (hrun : Transition.run ThreadQueue.step init events = some s) :
    (∀ thread, s.phase thread = .woken → s.queue ≠ []) ∧
      (∀ call ∈ s.received, call.ret = call.waited ∧ xMBPortEventGet call = (call.waited, call.Object)) ∧
      s.popped <+: s.pushed ∧ s.received.filterMap Received.Object = s.popped ∧
      (s.queue.length : ℤ) = s.wakeups + inPhase s.phase .pushed + inPhase s.phase .woken := by
  have h := Transition.run_invariant Delivers Delivers.step hrun delivers_init
  refine ⟨fun _ => h.queue_ne_nil, fun call hcall => ?_, ?_, h.handed, h.accounted⟩
  · obtain ⟨hret, hObject⟩ := h.returns call hcall
    exact ⟨hret, hret ▸ xMBPortEventGet_of_isSome hObject⟩
  · exact h.order ▸ List.prefix_append s.popped s.queue

/-- The second of two threads takes what the first one sends; its first wait is too early. -/
theorem run_delivers_two : ∃ (events : List (QueueEvent Bool ℕ)) (s : ThreadQueue Bool ℕ),
    Transition.run ThreadQueue.step init events = some s ∧ s.popped = [7] ∧ s.popped <+: s.pushed := by
  refine ⟨[.push true 7, .waitTimeout false, .signal true, .waitSuccess false, .pop false], _, rfl, rfl, ?_⟩
  have hrun : Transition.run ThreadQueue.step init
      [.push true 7, .waitTimeout false, .signal true, .waitSuccess false, .pop false] = some _ := rfl
  exact (run_delivers hrun).2.2.1

end ThreadQueue

end RemoteManage.Common
